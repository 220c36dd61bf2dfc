import NrfProjects.Interaction.Replay
import NrfProjects.Littlefs.FailedUpdates

/-! # Handles and the mount

`ledger` lets each call answer whatever its interface allows, and keeps account of what is open.
`balanced` is what a call asks of the account: a handle that is open, or for opening one that is
not, and for the unmount that nothing is. A file system from the `fstab` is mounted before `main`,
which does not look at whether that has succeeded. -/

namespace NrfProjects.Littlefs
set_option autoImplicit false
open Interaction Encoding

/-! ## The account -/

structure Ledger where
  files : FileVar → Bool
  /-- The entries left in the directory, while it is open. -/
  dir : Option ℕ
  /-- The flash area has been opened. -/
  areaFound : Bool
  wipeFailed : Bool
  /-- A mount has succeeded. -/
  mounted : Bool
  unmounts : ℕ

namespace Ledger

def setFile (s : Ledger) (file : FileVar) (isOpen : Bool) : Ledger :=
  { s with files := Function.update s.files file isOpen }

def setDir (s : Ledger) (dir : Option ℕ) : Ledger := { s with dir := dir }

def Closed (s : Ledger) : Prop := (∀ file, s.files file = false) ∧ s.dir = none

/-- Before `main`, only a file system from the `fstab` can be mounted. -/
def start (storage : Storage) (automounted : Bool) : Ledger :=
  ⟨fun _ => false, none, false, false, storage == .fstab && automounted, 0⟩

/-- What `littlefs_mount` goes by: its own mount, but for a file system from the `fstab` only the
flash area. -/
def ready (storage : Storage) (s : Ledger) : Bool :=
  match storage with
  | .fstab => s.areaFound && !s.wipeFailed
  | _ => s.mounted

/-- What a call may answer. A handle counts as closed once `fs_close` or `fs_closedir` has been
called on it, whatever the answer. -/
def Answers : {ρ : Type} → Call ρ → Ledger → ρ → Ledger → Prop
  | _, .flashAreaOpen, s, r, t => r = 0 ∧ t = { s with areaFound := true } ∨ r < 0 ∧ t = s
  | _, .flashAreaFlatten, s, r, t => r = 0 ∧ t = s ∨ r < 0 ∧ t = { s with wipeFailed := true }
  | _, .flashAreaClose, s, _, t => t = s
  | _, .fsMount, s, r, t => r = 0 ∧ t = { s with mounted := true } ∨ r < 0 ∧ t = s
  | _, .fsStatvfs, s, r, t => r ≤ 0 ∧ t = s
  | _, .fsOpendir _, s, r, t => r = 0 ∧ (∃ n, t = s.setDir (some n)) ∨ r < 0 ∧ t = s
  | _, .fsReaddir, s, r, t => r.1 < 0 ∧ t = s ∨
    match s.dir with
    | some (n + 1) => r.1 = 0 ∧ r.2 ≠ "" ∧ t = s.setDir (some n)
    | _ => r = (0, "") ∧ t = s
  | _, .fsClosedir, s, r, t => r ≤ 0 ∧ t = s.setDir none
  | _, .fsOpen file _, s, r, t => r = 0 ∧ t = s.setFile file true ∨ r < 0 ∧ t = s
  | _, .fsStat _, s, r, t => r.1 ≤ 0 ∧ t = s
  | _, .fsRead _ len, s, r, t => ((r.1 < 0 ∨ r.1 = r.2.length) ∧ r.2.length ≤ len) ∧ t = s
  | _, .fsSeek _ _, s, r, t => r ≤ 0 ∧ t = s
  | _, .fsWrite _ data, s, r, t => r ≤ data.length ∧ t = s
  | _, .fsTruncate _ _, s, r, t => r ≤ 0 ∧ t = s
  | _, .fsClose file, s, r, t => r ≤ 0 ∧ t = s.setFile file false
  | _, .fsUnlink _, s, r, t => r ≤ 0 ∧ t = s
  | _, .fsUnmount, s, r, t => r ≤ 0 ∧ t = { s with unmounts := s.unmounts + 1 }
  | _, .kUptimeGet, s, _, t => t = s
  | _, .memFault, s, _, t => t = s

/-- What a call needs. -/
def Permits (storage : Storage) : {ρ : Type} → Call ρ → Ledger → Prop
  | _, .fsOpen file _, s => s.files file = false
  | _, .fsRead file _, s => s.files file = true
  | _, .fsSeek file _, s => s.files file = true
  | _, .fsWrite file _, s => s.files file = true
  | _, .fsTruncate file _, s => s.files file = true
  | _, .fsClose file, s => s.files file = true
  | _, .fsOpendir _, s => s.dir = none
  | _, .fsReaddir, s => s.dir ≠ none
  | _, .fsClosedir, s => s.dir ≠ none
  | _, .fsUnmount, s => s.ready storage = true ∧ s.unmounts = 0 ∧ s.Closed
  | _, .memFault, _ => False
  | _, _, _ => True

end Ledger

def ledger : Device Call Ledger := ⟨Ledger.Answers, fun _ _ => False⟩

instance : ledger.Quiet := ⟨fun _ _ h => h⟩

def balanced (storage : Storage) : Watch Call Ledger := ⟨fun _ => True, Ledger.Permits storage⟩

variable {α β : Type} {storage : Storage} {s : Ledger} {file : FileVar} {path : String}
  {P : α → Prop} {p : Prog Call α}

theorem setFile_setFile (hs : s.files file = false) : (s.setFile file true).setFile file false = s := by
  unfold Ledger.setFile
  rw [Function.update_idem, ← hs, Function.update_eq_self]

theorem setFile_files : (s.setFile file true).files file = true := Function.update_self ..

theorem setDir_setDir {n : Option ℕ} (hs : s.dir = none) : (s.setDir n).setDir none = s := by
  unfold Ledger.setDir
  rw [← hs]

/-! ## Programs that leave the account as it is -/

/-- Every run returns, with a `P` and the account as it was, and every call is permitted. -/
def Keeps (storage : Storage) (P : α → Prop) (p : Prog Call α) (s : Ledger) : Prop :=
  Returns ledger (balanced storage) (fun a t => P a ∧ t = s) p s

theorem keeps_pure {a : α} (h : P a) : Keeps storage P (pure a) s := .ret ⟨h, rfl⟩

theorem Keeps.bind {Q : β → Prop} {f : α → Prog Call β} (hp : Keeps storage P p s)
    (hf : ∀ a, P a → Keeps storage Q (f a) s) : Keeps storage Q (p >>= f) s := by
  refine returns_bind.mpr (Returns.imp hp fun a t h => ?_)
  obtain ⟨ha, rfl⟩ := h
  exact hf a ha

theorem Keeps.ite {q : Prog Call α} {C : Prop} [Decidable C] (hp : C → Keeps storage P p s)
    (hq : ¬ C → Keeps storage P q s) : Keeps storage P (if C then p else q) s := by
  by_cases h : C
  · rw [if_pos h]
    exact hp h
  · rw [if_neg h]
    exact hq h

theorem Keeps.orReturn {a : α} {C : Prop} [Decidable C] (hp : Keeps storage (fun _ => True) p s) :
    Keeps storage (fun _ => True) (if C then pure a else p) s :=
  .ite (fun _ => keeps_pure trivial) fun _ => hp

theorem keeps_call {ρ : Type} {c : Call ρ} {P : ρ → Prop} (hpermits : Ledger.Permits storage c s)
    (hc : ∀ r t, s.Answers c r t ↔ P r ∧ t = s) (hP : ∃ r, P r) : Keeps storage P (liftM c) s := by
  obtain ⟨r, hr⟩ := hP
  refine returns_lift.mpr ⟨hpermits, ⟨r, s, (hc r s).mpr ⟨hr, rfl⟩⟩, fun r t ha => ?_⟩
  exact (hc r t).mp ha

theorem keeps_flashAreaClose : Keeps storage (fun _ => True) (liftM Call.flashAreaClose) s :=
  keeps_call trivial (fun _ _ => (true_and _).symm ▸ Iff.rfl) ⟨(), trivial⟩

theorem keeps_fsStatvfs : Keeps storage (· ≤ 0) (liftM Call.fsStatvfs) s :=
  keeps_call trivial (fun _ _ => Iff.rfl) ⟨0, le_rfl⟩

theorem keeps_fsStat : Keeps storage (·.1 ≤ 0) (liftM (Call.fsStat path)) s :=
  keeps_call trivial (fun _ _ => Iff.rfl) ⟨(0, ⟨.file, 0⟩), le_rfl⟩

theorem keeps_fsUnlink : Keeps storage (· ≤ 0) (liftM (Call.fsUnlink path)) s :=
  keeps_call trivial (fun _ _ => Iff.rfl) ⟨0, le_rfl⟩

theorem keeps_kUptimeGet : Keeps storage (fun _ => True) (liftM Call.kUptimeGet) s :=
  keeps_call trivial (fun _ _ => (true_and _).symm ▸ Iff.rfl) ⟨0, trivial⟩

section OpenFile
variable (hs : s.files file = true)
include hs

theorem keeps_fsRead (len : ℕ) :
    Keeps storage (fun r => (r.1 < 0 ∨ r.1 = r.2.length) ∧ r.2.length ≤ len)
      (liftM (Call.fsRead file len)) s :=
  keeps_call hs (fun _ _ => Iff.rfl) ⟨(0, []), .inr rfl, Nat.zero_le len⟩

theorem keeps_fsSeek (pos : ℕ) : Keeps storage (· ≤ 0) (liftM (Call.fsSeek file pos)) s :=
  keeps_call hs (fun _ _ => Iff.rfl) ⟨0, le_rfl⟩

theorem keeps_fsWrite (data : List UInt8) :
    Keeps storage (· ≤ (data.length : ℤ)) (liftM (Call.fsWrite file data)) s :=
  keeps_call hs (fun _ _ => Iff.rfl) ⟨data.length, le_rfl⟩

theorem keeps_fsTruncate (len : ℕ) : Keeps storage (· ≤ 0) (liftM (Call.fsTruncate file len)) s :=
  keeps_call hs (fun _ _ => Iff.rfl) ⟨0, le_rfl⟩

end OpenFile

/-! ## The functions -/

/-- The steps may do what they like with an open file, except open and close. -/
theorem onFile_keeps {σ : Type} {P : σ → Prop} {static : σ} {steps : Prog Call (ℤ × σ)}
    (hstatic : P static) (hs : s.files file = false)
    (hsteps : Keeps storage (fun x => P x.2) steps (s.setFile file true)) :
    Keeps storage (fun x => P x.2) (onFile file path static steps) s := by
  unfold Keeps onFile
  rw [returns_bind, returns_lift]
  refine ⟨hs, ⟨0, _, .inl ⟨rfl, rfl⟩⟩, fun rc t ha => ?_⟩
  cases ha with
  | inr hfail =>
    obtain ⟨hrc, rfl⟩ := hfail
    rw [if_pos hrc]
    exact keeps_pure hstatic
  | inl hopen =>
    obtain ⟨rfl, rfl⟩ := hopen
    rw [if_neg (Int.lt_irrefl 0), returns_bind]
    refine Returns.imp hsteps fun x u hx => ?_
    obtain ⟨rc, static⟩ := x
    obtain ⟨hP, rfl⟩ := hx
    dsimp only
    rw [returns_bind, returns_lift]
    refine ⟨setFile_files, ⟨0, _, le_rfl, rfl⟩, fun ret v hv => ?_⟩
    obtain ⟨-, rfl⟩ := hv
    rw [setFile_setFile hs]
    exact Keeps.ite (fun _ => keeps_pure hP) fun _ => keeps_pure hP

theorem bootCountSteps_keeps (hs : s.files .bootCount = true) :
    Keeps storage (fun _ => True) bootCountSteps s := by
  unfold bootCountSteps
  apply Keeps.bind (keeps_fsRead hs 1)
  intro r _
  apply Keeps.orReturn
  apply Keeps.bind (keeps_fsSeek hs 0)
  intro rc _
  apply Keeps.orReturn
  apply Keeps.bind (keeps_fsWrite hs _)
  intro rc _
  exact keeps_pure trivial

theorem littlefsIncreaseInfileValue_keeps (hs : s.files .bootCount = false) :
    Keeps storage (fun _ => True) (littlefsIncreaseInfileValue path) s := by
  unfold littlefsIncreaseInfileValue
  apply Keeps.bind (onFile_keeps (P := fun _ => True) trivial hs (bootCountSteps_keeps setFile_files))
  intro x _
  exact keeps_pure trivial

theorem oldCount_keeps {writeCount : ℤ} (hs : s.files .text = true) :
    Keeps storage (fun _ => True) (oldCount path writeCount) s := by
  unfold oldCount
  apply Keeps.bind keeps_fsStat
  intro r _
  apply Keeps.orReturn
  apply Keeps.orReturn
  apply Keeps.bind (keeps_fsRead hs 31)
  intro r _
  apply Keeps.orReturn
  exact keeps_pure trivial

theorem textSteps_keeps {writeCount : ℤ} (hs : s.files .text = true) :
    Keeps storage (fun _ => True) (textSteps path writeCount) s := by
  unfold textSteps
  apply Keeps.bind (oldCount_keeps hs)
  intro x _
  apply Keeps.orReturn
  apply Keeps.bind keeps_kUptimeGet
  intro time _
  apply Keeps.bind (keeps_fsSeek hs 0)
  intro rc _
  apply Keeps.orReturn
  apply Keeps.bind (keeps_fsWrite hs _)
  intro rc _
  apply Keeps.orReturn
  apply Keeps.bind (keeps_fsTruncate hs _)
  intro rc _
  exact keeps_pure trivial

theorem littlefsTextFileWrite_keeps {writeCount : ℤ} (hs : s.files .text = false) :
    Keeps storage (fun _ => True) (littlefsTextFileWrite path writeCount) s :=
  onFile_keeps (P := fun _ => True) trivial hs (textSteps_keeps setFile_files)

theorem keeps_inside {x : Option α} {a : α} (hx : x = some a) (ha : P a) :
    Keeps storage P (inside x) s := by
  rw [hx]
  exact keeps_pure ha

/-- The pattern keeps its length, so no access to it is outside. -/
theorem nextPattern_keeps {q : List UInt8} (hs : s.files .binary = true)
    (hq : q.length = TEST_FILE_SIZE) :
    Keeps storage (fun x => x.2.length = TEST_FILE_SIZE) (nextPattern path q) s := by
  have hold : ∀ rc : ℤ, Keeps storage (fun x => x.2.length = TEST_FILE_SIZE) (pure (rc, q)) s :=
    fun _ => keeps_pure hq
  unfold nextPattern
  apply Keeps.bind keeps_fsStat
  intro r _
  apply Keeps.ite (fun _ => hold _)
  intro _
  apply Keeps.ite
  · intro _
    obtain ⟨q', hq', hlen⟩ := initPattern_inside (by decide) hq
    apply Keeps.bind (keeps_inside (P := fun p => p.length = TEST_FILE_SIZE) hq' hlen)
    intro x hx
    exact keeps_pure hx
  · intro _
    apply Keeps.bind (keeps_fsRead hs TEST_FILE_SIZE)
    intro r hr
    apply Keeps.ite (fun _ => hold _)
    intro _
    have hlength : (r.2 ++ q.drop r.2.length).length = TEST_FILE_SIZE := by
      have hle := hr.2
      rw [List.length_append, List.length_drop]
      omega
    obtain ⟨q', hq', hlen⟩ := incrPattern_inside 0x1 (by decide) hlength
    apply Keeps.bind (keeps_inside (P := fun p => p.length = TEST_FILE_SIZE) hq' hlen)
    intro x hx
    exact keeps_pure hx

theorem binarySteps_keeps {q : List UInt8} (hs : s.files .binary = true)
    (hq : q.length = TEST_FILE_SIZE) : Keeps storage (fun _ => True) (binarySteps path q) s := by
  unfold binarySteps
  apply Keeps.bind (nextPattern_keeps hs hq)
  intro x _
  apply Keeps.orReturn
  apply Keeps.bind (keeps_fsSeek hs 0)
  intro rc _
  apply Keeps.orReturn
  apply Keeps.bind (keeps_fsWrite hs _)
  intro rc _
  exact keeps_pure trivial

theorem littlefsBinaryFileAdj_keeps {q : List UInt8} (hs : s.files .binary = false)
    (hq : q.length = TEST_FILE_SIZE) :
    Keeps storage (fun _ => True) (littlefsBinaryFileAdj path q) s :=
  onFile_keeps (P := fun _ => True) trivial hs (binarySteps_keeps setFile_files hq)

theorem Updater.run_keeps (f : Updater) (hs : s.Closed) : Keeps storage (fun _ => True) (f.run path) s := by
  cases f with
  | increase => exact littlefsIncreaseInfileValue_keeps (hs.1 _)
  | text writeCount =>
    apply Keeps.bind (littlefsTextFileWrite_keeps (hs.1 _))
    intro x _
    exact keeps_pure trivial
  | binary p =>
    apply Keeps.bind (littlefsBinaryFileAdj_keeps (hs.1 _) p.2)
    intro x _
    exact keeps_pure trivial

theorem rmfile_keeps : Keeps storage (fun _ => True) (rmfile path) s := by
  unfold rmfile
  apply Keeps.bind keeps_fsUnlink
  intro res _
  apply Keeps.orReturn
  exact keeps_pure trivial

/-! ## Directories -/

/-- Each entry is read once, so the loop ends with the directory. -/
theorem readEntries_returns (n : ℕ) :
    Returns ledger (balanced storage) (fun _ t => ∃ m, t = s.setDir (some m)) readEntries
      (s.setDir (some n)) := by
  apply Returns.repeatM (fun _ t => ∃ m, t = s.setDir (some m))
    (measure fun x : Unit × Ledger => x.2.dir.getD 0).wf ⟨n, rfl⟩
  intro _ t u ht hm
  obtain ⟨m, rfl⟩ := ht
  obtain rfl : u = s.setDir (some m) := Device.moves_iff.mp hm
  refine ⟨trivial, ?_⟩
  rw [returns_bind, returns_lift]
  refine ⟨Option.some_ne_none m, ⟨(-5, ""), _, .inl ⟨by decide, rfl⟩⟩, fun r v hv => ?_⟩
  obtain ⟨res, name⟩ := r
  cases hv with
  | inl hfail =>
    obtain ⟨hneg, rfl⟩ := hfail
    dsimp only at hneg ⊢
    rw [if_pos (.inl (by omega))]
    exact .ret ⟨m, rfl⟩
  | inr hread =>
    cases m with
    | zero =>
      obtain ⟨heq, rfl⟩ := hread
      cases heq
      dsimp only
      rw [if_pos (.inr rfl)]
      exact .ret ⟨0, rfl⟩
    | succ m =>
      obtain ⟨hres, hname, rfl⟩ := hread
      dsimp only at hres hname ⊢
      rw [if_neg fun h => h.elim (fun hne => hne hres) hname]
      exact .ret ⟨⟨m, rfl⟩, Nat.lt_succ_self m⟩

theorem lsdir_keeps (hs : s.dir = none) : Keeps storage (fun _ => True) (lsdir path) s := by
  unfold Keeps lsdir
  rw [returns_bind, returns_lift]
  refine ⟨hs, ⟨0, _, .inl ⟨rfl, 0, rfl⟩⟩, fun res t ha => ?_⟩
  cases ha with
  | inr hfail =>
    obtain ⟨hneg, rfl⟩ := hfail
    rw [if_pos (Int.ne_of_lt hneg)]
    exact keeps_pure trivial
  | inl hopen =>
    obtain ⟨rfl, n, rfl⟩ := hopen
    rw [if_neg (by simp), returns_bind]
    refine (readEntries_returns n).imp fun res u hu => ?_
    obtain ⟨m, rfl⟩ := hu
    rw [returns_bind, returns_lift]
    refine ⟨Option.some_ne_none m, ⟨0, _, le_rfl, rfl⟩, fun ret v hv => ?_⟩
    obtain ⟨-, rfl⟩ := hv
    show Returns ledger (balanced storage) _ _ ((s.setDir none).setDir none)
    rw [setDir_setDir hs]
    exact keeps_pure trivial

/-! ## The main program -/

/-- Nothing is open and nothing is unmounted yet. -/
structure Mounting (s : Ledger) : Prop where
  closed : s.Closed
  unmounts : s.unmounts = 0

/-- `littlefs_mount` answers with an error unless what it goes by has succeeded. -/
structure Mounted (storage : Storage) (rc : ℤ) (s : Ledger) : Prop extends Mounting s where
  ready : s.ready storage = true ↔ 0 ≤ rc

theorem start_mounting (storage : Storage) (automounted : Bool) :
    Mounting (.start storage automounted) :=
  ⟨⟨fun _ => rfl, rfl⟩, rfl⟩

theorem fsMount_returns (hready : ∀ t : Ledger, t.ready storage = t.mounted) (hs : Mounting s)
    (hm : s.mounted = false) :
    Returns ledger (balanced storage) (Mounted storage) (liftM Call.fsMount) s := by
  refine returns_lift.mpr ⟨trivial, ⟨0, _, .inl ⟨rfl, rfl⟩⟩, fun rc t ha => ?_⟩
  cases ha with
  | inl hmount =>
    obtain ⟨rfl, rfl⟩ := hmount
    exact ⟨⟨hs.closed, hs.unmounts⟩, iff_of_true (hready _) le_rfl⟩
  | inr hfail =>
    obtain ⟨hrc, rfl⟩ := hfail
    exact ⟨hs, iff_of_false (by simp [hready, hm]) (Int.not_le.mpr hrc)⟩

/-- `littlefs_flash_erase` answers with an error unless the flash area is found, and wiped if it is to
be; it mounts nothing. -/
structure Erased (before : Ledger) (rc : ℤ) (s : Ledger) : Prop extends Mounting s where
  mounted : s.mounted = before.mounted
  area : (s.areaFound && !s.wipeFailed) = true ↔ 0 ≤ rc

theorem optionalWipe_returns (wipe : Bool) (hs : Mounting s) (hfound : s.areaFound = true)
    (hwiped : s.wipeFailed = false) :
    Returns ledger (balanced storage) (Erased s) (optionalWipe wipe 0) s := by
  have herased : Erased s 0 s := ⟨hs, rfl, iff_of_true (by simp [hfound, hwiped]) le_rfl⟩
  cases wipe with
  | false => exact .ret herased
  | true =>
    rw [optionalWipe, if_pos rfl, returns_lift]
    refine ⟨trivial, ⟨0, s, .inl ⟨rfl, rfl⟩⟩, fun rc t ha => ?_⟩
    cases ha with
    | inl hdone =>
      obtain ⟨rfl, rfl⟩ := hdone
      exact herased
    | inr hfail =>
      obtain ⟨hrc, rfl⟩ := hfail
      exact ⟨⟨hs.closed, hs.unmounts⟩, rfl, iff_of_false (by simp) (Int.not_le.mpr hrc)⟩

theorem littlefsFlashErase_returns (wipe : Bool) (hs : Mounting s) (hfound : s.areaFound = false)
    (hwiped : s.wipeFailed = false) :
    Returns ledger (balanced storage) (Erased s) (littlefsFlashErase wipe) s := by
  unfold littlefsFlashErase
  rw [returns_bind, returns_lift]
  refine ⟨trivial, ⟨0, _, .inl ⟨rfl, rfl⟩⟩, fun rc t ha => ?_⟩
  cases ha with
  | inl hdone =>
    obtain ⟨rfl, rfl⟩ := hdone
    have hs' : Mounting { s with areaFound := true } := ⟨hs.closed, hs.unmounts⟩
    rw [if_neg (Int.lt_irrefl 0), returns_bind]
    apply (optionalWipe_returns wipe hs' rfl hwiped).imp
    intro rc t ht
    have hclose : Keeps storage (· = rc) (do Call.flashAreaClose; return rc) t :=
      Keeps.bind keeps_flashAreaClose fun _ _ => keeps_pure rfl
    apply hclose.imp
    intro rc' u hu
    obtain ⟨rfl, rfl⟩ := hu
    exact ⟨ht.toMounting, ht.mounted, ht.area⟩
  | inr hfail =>
    obtain ⟨hrc, rfl⟩ := hfail
    rw [if_pos hrc, returns_pure]
    exact ⟨hs, rfl, iff_of_false (by simp [hfound]) (Int.not_le.mpr hrc)⟩

/-- An error is passed on, and any other answer becomes 0. -/
theorem Mounted.passedOn {rc : ℤ} (h : Mounted storage rc s) :
    Returns ledger (balanced storage) (Mounted storage) (if rc < 0 then pure rc else pure 0) s := by
  by_cases hneg : rc < 0
  · rw [if_pos hneg, returns_pure]
    exact h
  · rw [if_neg hneg, returns_pure]
    exact ⟨h.toMounting, iff_of_true (h.ready.mpr (Int.not_lt.mp hneg)) le_rfl⟩

theorem littlefsMount_returns (storage : Storage) (wipe automounted : Bool) :
    Returns ledger (balanced storage) (Mounted storage) (littlefsMount wipe storage)
      (.start storage automounted) := by
  have hs := start_mounting storage automounted
  cases storage with
  | sd =>
    exact returns_bind.mpr ((fsMount_returns (fun _ => rfl) hs rfl).imp fun rc t ht => .ret ht)
  | mmc =>
    exact returns_bind.mpr ((fsMount_returns (fun _ => rfl) hs rfl).imp fun rc t ht => .ret ht)
  | fstab =>
    apply returns_bind.mpr
    apply (littlefsFlashErase_returns wipe hs rfl rfl).imp
    intro rc t ht
    have hmounted : Mounted .fstab rc t := ⟨ht.toMounting, ht.area⟩
    exact hmounted.passedOn
  | flash =>
    have hready : ∀ t : Ledger, t.ready .flash = t.mounted := fun _ => rfl
    apply returns_bind.mpr
    apply (littlefsFlashErase_returns wipe hs rfl rfl).imp
    intro rc t ht
    have hunmounted : t.mounted = false := ht.mounted
    by_cases hneg : rc < 0
    · rw [if_pos hneg, returns_pure]
      exact ⟨ht.toMounting, iff_of_false (by simp [hready, hunmounted]) (Int.not_le.mpr hneg)⟩
    · rw [if_neg hneg, returns_bind]
      apply (fsMount_returns hready ht.toMounting hunmounted).imp
      intro rc u hu
      exact hu.passedOn

theorem demo_keeps (storage : Storage) (hs : s.Closed) : Keeps storage (fun _ => True) (demo storage) s := by
  unfold demo
  apply Keeps.bind keeps_fsStatvfs
  intro rc _
  apply Keeps.orReturn
  apply Keeps.bind (lsdir_keeps hs.2)
  intro rc _
  apply Keeps.orReturn
  apply Keeps.bind (littlefsIncreaseInfileValue_keeps (hs.1 _))
  intro rc _
  apply Keeps.orReturn
  apply Keeps.bind (littlefsTextFileWrite_keeps (hs.1 _))
  intro x _
  apply Keeps.orReturn
  apply Keeps.bind (littlefsBinaryFileAdj_keeps (hs.1 _) (by simp))
  intro x _
  apply Keeps.orReturn
  apply Keeps.bind rmfile_keeps
  intro rc _
  apply Keeps.orReturn
  apply Keeps.bind (lsdir_keeps hs.2)
  intro rc _
  exact keeps_pure trivial

/-- At the end of `main` nothing is open, and what is mounted has been unmounted once. -/
theorem mainWith_returns (storage : Storage) (wipe automounted : Bool) :
    Returns ledger (balanced storage)
      (fun _ t => t.Closed ∧ t.unmounts = if t.ready storage then 1 else 0)
      (mainWith storage wipe) (.start storage automounted) := by
  unfold mainWith
  refine returns_bind.mpr ((littlefsMount_returns storage wipe automounted).imp fun rc t ht => ?_)
  by_cases hneg : rc < 0
  · have hready : t.ready storage = false := by
      rw [Bool.eq_false_iff, ne_eq, ht.ready]
      omega
    rw [if_pos hneg, returns_pure, hready]
    exact ⟨ht.closed, ht.unmounts⟩
  · have hready : t.ready storage = true := ht.ready.mpr (Int.not_lt.mp hneg)
    rw [if_neg hneg, returns_bind]
    refine Returns.imp (demo_keeps storage ht.closed) fun _ u hu => ?_
    obtain ⟨-, rfl⟩ := hu
    rw [returns_bind, returns_lift]
    refine ⟨⟨hready, ht.unmounts, ht.closed⟩, ⟨0, _, le_rfl, rfl⟩, fun rc v hv => ?_⟩
    obtain ⟨-, rfl⟩ := hv
    refine .ret ⟨ht.closed, ?_⟩
    show u.unmounts + 1 = if u.ready storage then 1 else 0
    rw [ht.unmounts, hready]
    rfl

/-- **Handles and the mount.** However the calls fail, each call is permitted, each function that
opens a handle leaves the account as it found it, and `main` ends with nothing open and one unmount
of what it has mounted; of a file system from the `fstab` there is one unmount once its flash area
has been found, and wiped if it is to be, mounted or not. -/
theorem handles_balanced (storage : Storage) (wipe automounted : Bool) :
    (∀ (s : Ledger) (path : String), s.Closed →
      Returns ledger (balanced storage) (fun _ t => t = s) (lsdir path) s) ∧
    (∀ (f : Updater) (s : Ledger) (path : String), s.Closed →
      Returns ledger (balanced storage) (fun _ t => t = s) (f.run path) s) ∧
    Returns ledger (balanced storage)
      (fun _ t => t.Closed ∧ t.unmounts = if t.ready storage then 1 else 0)
      (mainWith storage wipe) (.start storage automounted) := by
  refine ⟨fun s path hs => ?_, fun f s path hs => ?_, mainWith_returns storage wipe automounted⟩
  · exact Returns.imp (lsdir_keeps hs.2) fun _ t h => h.2
  · exact Returns.imp (f.run_keeps hs) fun _ t h => h.2

/-- A listing at the start of `main`, and an update. -/
theorem handles_balanced_start :
    Returns ledger (balanced .flash) (fun _ t => t = .start .flash false) (lsdir "/lfs")
      (.start .flash false) ∧
    Returns ledger (balanced .flash) (fun _ t => t = .start .flash false)
      (Updater.increase.run "/lfs/boot_count") (.start .flash false) :=
  have hs : (Ledger.start .flash false).Closed := ⟨fun _ => rfl, rfl⟩
  ⟨(handles_balanced .flash true false).1 _ _ hs, (handles_balanced .flash true false).2.1 _ _ _ hs⟩

/-! ## A file system that has not been mounted -/

/-- The flash area is found; there is no file system to give figures of, or to unmount. -/
def unmountedReply {ρ : Type} : Call ρ → Ledger → Option (ρ × Ledger)
  | .flashAreaOpen, s => some (0, { s with areaFound := true })
  | .flashAreaClose, s => some ((), s)
  | .fsStatvfs, s => some (-2, s)
  | .fsUnmount, s => some (-22, { s with unmounts := s.unmounts + 1 })
  | _, _ => none

theorem unmountedReply_follows : Script.Follows unmountedReply ledger := by
  intro ρ c s r t h
  refine ⟨s, .refl, ?_⟩
  cases c with
  | flashAreaOpen =>
    cases h
    exact .inl ⟨rfl, rfl⟩
  | flashAreaClose =>
    cases h
    rfl
  | fsStatvfs | fsUnmount =>
    cases h
    exact ⟨by decide, rfl⟩
  | _ => cases h

/-- The file system from the `fstab` could not be mounted, and `main` unmounts it all the same. -/
theorem unmounted_automount : ∃ t : Ledger,
    Steps ledger (main .fstab, .start .fstab false) (.ret 0, t) ∧ t.mounted = false ∧
      t.unmounts = 1 :=
  ⟨_, Steps.of_replay unmountedReply_follows 10 rfl, rfl, rfl⟩

end NrfProjects.Littlefs
