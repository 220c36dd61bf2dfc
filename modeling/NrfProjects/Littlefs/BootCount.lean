import NrfProjects.Littlefs.CrashConsistency

/-! # What the counts say about the boots

A cut boot is counted in both files, in the first alone or in none. So the two counts lie between the
number of complete boots and the number of all boots, and are equal to it when none is cut. -/

namespace NrfProjects.Littlefs
set_option autoImplicit false
open Interaction Encoding

/-- Since `d₀`, the files of `done` have been closed with changes, and no others. -/
def Grown (d₀ : Disk) (done : List String) (d : Disk) : Prop :=
  ∀ path, d.commits path = d₀.commits path + done.count path

/-- The files in the order a boot writes them. -/
def written (storage : Storage) : List String :=
  [fname1 storage, fname2 storage, fname3 storage]

/-- In the course of a boot that found `d₀`. -/
def Growing (storage : Storage) (d₀ d : Disk) : Prop :=
  ∃ k, Grown d₀ ((written storage).take k) d

variable {storage : Storage} {d₀ d : Disk} {done : List String} {path : String}

theorem Grown.refl (d : Disk) : Grown d [] d := fun _ => rfl

theorem Grown.unlink (h : Grown d₀ done d) (path : String) : Grown d₀ done (d.unlink path) := h

theorem Grown.commit {d' : Disk} {image : List UInt8} (h : Grown d₀ done d)
    (hd : d' = (d.create path).commit path image) : Grown d₀ (done ++ [path]) d' := by
  subst hd
  intro q
  rw [List.count_append, List.count_singleton]
  by_cases hq : q = path
  · subst hq
    rw [Disk.commit_commits_self, Disk.create_commits, h q, if_pos (beq_self_eq_true _),
      Nat.add_assoc]
  · have hne : (path == q) = false := beq_false_of_ne (Ne.symm hq)
    rw [Disk.commit_commits hq, Disk.create_commits, h q, hne]
    rfl

/-- A boot writes each of the three files once at most. -/
theorem Growing.bounds (h : Growing storage d₀ d) (path : String) :
    d₀.commits path ≤ d.commits path ∧ d.commits path ≤ d₀.commits path + 1 := by
  obtain ⟨k, h⟩ := h
  have hnodup : (written storage).Nodup := by
    cases storage <;> decide
  have hle : ((written storage).take k).count path ≤ 1 :=
    List.nodup_iff_count.mp (hnodup.sublist (List.take_sublist k _)) path
  have hpath := h path
  omega

/-! ## One boot -/

section
variable {s : System}

theorem demo_grown (h : Grown d₀ [] s.toDisk) :
    Safe (device noFaults) (diskWatch (Growing storage d₀)) (demo storage) s fun _ u =>
      Grown d₀ (written storage) u.toDisk ∧ u.files (fname3 storage) = none := by
  have hstart : Growing storage d₀ s.toDisk := ⟨0, h⟩
  unfold demo
  rw [safe_bind, safe_done (r := 0) (t := s) fun _ _ => Iff.rfl]
  refine ⟨hstart, ?_⟩
  simp only [Int.lt_irrefl, if_false, safe_bind]
  apply (lsdir_spec _ hstart).imp
  intro _ t ht
  obtain ⟨rfl, rfl⟩ := ht
  simp only [Int.lt_irrefl, if_false, safe_bind]
  apply (littlefsIncreaseInfileValue_spec hstart hstart).imp
  intro _ t₁ ht₁
  obtain ⟨rfl, hdisk₁⟩ := ht₁
  have h₁ := h.commit hdisk₁
  have hfirst : Growing storage d₀ t₁.toDisk := ⟨1, h₁⟩
  simp only [ne_eq, not_true_eq_false, if_false, safe_bind]
  apply (littlefsTextFileWrite_spec hfirst hfirst).imp
  intro x t₂ hx
  obtain ⟨rc, count⟩ := x
  obtain ⟨hrc, -, hdisk₂⟩ := hx
  obtain rfl : rc = 0 := hrc
  have h₂ := h₁.commit hdisk₂
  have hsecond : Growing storage d₀ t₂.toDisk := ⟨2, h₂⟩
  simp only [not_true_eq_false, if_false, safe_bind]
  apply (littlefsBinaryFileAdj_spec List.length_replicate hsecond hsecond).imp
  intro x t₃ hx
  obtain ⟨rc, pattern⟩ := x
  obtain ⟨hrc, q, -, hdisk₃⟩ := hx
  obtain rfl : rc = 0 := hrc
  have h₃ := h₂.commit hdisk₃
  have hthird : Growing storage d₀ t₃.toDisk := ⟨3, h₃⟩
  have hfile : ∃ data, t₃.files (fname3 storage) = some data := by
    rw [hdisk₃]
    exact ⟨_, Disk.commit_files_self⟩
  obtain ⟨data, hdata⟩ := hfile
  simp only [not_true_eq_false, if_false, safe_bind]
  apply (rmfile_spec hthird hdata).imp
  intro _ t₄ ht₄
  obtain ⟨rfl, hdisk₄⟩ := ht₄
  have h₄ := h₃.unlink (fname3 storage)
  rw [← hdisk₄] at h₄
  have hgone : t₄.files (fname3 storage) = none := by
    rw [hdisk₄]
    exact Disk.unlink_files_self
  simp only [not_true_eq_false, if_false, safe_bind]
  apply (lsdir_spec _ (⟨3, h₄⟩ : Growing storage d₀ t₄.toDisk)).imp
  intro _ t₅ ht₅
  obtain ⟨-, rfl⟩ := ht₅
  rw [safe_pure]
  exact ⟨h₄, hgone⟩

theorem main_grown (storage : Storage) (s : System) :
    Safe (device noFaults) (diskWatch (Growing storage s.toDisk)) (main storage) s fun _ u =>
      Grown s.toDisk (written storage) u.toDisk ∧ u.files (fname3 storage) = none := by
  have hstart : Growing storage s.toDisk s.toDisk := ⟨0, .refl _⟩
  unfold main mainWith
  rw [safe_bind]
  apply (littlefsMount_spec storage hstart).imp
  intro _ t ht
  obtain ⟨rfl, rfl⟩ := ht
  simp only [Int.lt_irrefl, if_false, safe_bind]
  apply (demo_grown (.refl _)).imp
  intro _ u hu
  rw [safe_done (r := 0) (t := u) fun _ _ => Iff.rfl, safe_pure]
  exact ⟨⟨3, hu.1⟩, hu⟩

end

variable {s t : System} {o : Option ℤ}

/-- What holds of the disk at every call holds of it throughout. -/
theorem always_of_disk {α : Type} {I : Disk → Prop} {p : Prog Call α} {Q : α → System → Prop}
    (h : Safe (device noFaults) (diskWatch I) p s Q) :
    Safe (device noFaults) (.always fun u => I u.toDisk) p s Q := by
  refine h.mono (fun _ hu => hu) (fun c u hu => ?_) fun _ _ hu => hu
  cases c with
  | memFault => exact hu.elim
  | _ => exact hu

theorem boot_growing (h : Boot (device noFaults) System.powerUp (main storage) s o t) :
    Growing storage s.toDisk t.toDisk := by
  have hmain := main_grown storage s.powerUp
  cases h with
  | finished hs => exact ⟨3, (hmain.result hs).1⟩
  | cut hs => exact (always_of_disk hmain).always (fun _ _ hu => ⟨3, hu.1⟩) hs

theorem boot_grown {a : ℤ} (h : Boot (device noFaults) System.powerUp (main storage) s (some a) t) :
    Grown s.toDisk (written storage) t.toDisk ∧ t.files (fname3 storage) = none := by
  cases h with
  | finished hs => exact (main_grown storage s.powerUp).result hs

/-! ## Any number of boots -/

theorem boots_between {l : List (System × Option ℤ)}
    (h : History (device noFaults) System.powerUp (main storage) s l t) :
    (∀ path ∈ written storage, s.commits path + l.countP (·.2.isSome) ≤ t.commits path) ∧
      ∀ path, t.commits path ≤ s.commits path + l.length := by
  induction h with
  | start => exact ⟨fun _ _ => le_rfl, fun _ => le_rfl⟩
  | @boot u v l o hl hb ih =>
    obtain ⟨hlow, hhigh⟩ := ih
    have hgrowing := boot_growing hb
    constructor
    · intro path hpath
      have hprev := hlow path hpath
      rw [List.countP_append, List.countP_singleton]
      cases o with
      | none =>
        have hstep := (hgrowing.bounds path).1
        simp
        omega
      | some a =>
        have hstep := (boot_grown hb).1 path
        have hone : 1 ≤ (written storage).count path := List.one_le_count_iff.mpr hpath
        simp
        omega
    · intro path
      have hprev := hhigh path
      have hstep := (hgrowing.bounds path).2
      rw [List.length_append, List.length_singleton]
      omega

/-- **The counts bound the boots.** From a formatted disk, after any boots, complete or cut: the
text file counts at least the complete ones, the boot file at least as many as the text file and
no more than all boots; and a complete boot leaves no pattern. -/
theorem boots_counted (storage : Storage) {l : List (System × Option ℤ)}
    (h : History (device noFaults) System.powerUp (main storage) formatted l t) :
    (∃ boots texts : ℕ, l.countP (·.2.isSome) ≤ texts ∧ texts ≤ boots ∧ boots ≤ l.length ∧
      (Blank t.toDisk (fname1 storage) ∧ boots = 0 ∨
        t.files (fname1 storage) = some [UInt8.ofNat boots]) ∧
      (texts < 2 ^ 31 → Blank t.toDisk (fname2 storage) ∧ texts = 0 ∨
        ∃ time, t.files (fname2 storage) = some (textContent texts (toInt32 time)))) ∧
    ∀ s a, l.getLast? = some (s, some a) → t.files (fname3 storage) = none := by
  obtain ⟨hlow, hhigh⟩ := boots_between h
  have hconsistent : Consistent storage t.toDisk := by
    apply h.invariant (I := fun u => Consistent storage u.toDisk) (formatted_consistent storage)
    intro u hu
    have hstart : Consistent storage u.powerUp.toDisk := hu
    exact always_of_disk (main_spec hstart)
  constructor
  · have hcomplete := hlow (fname2 storage) (by simp [written])
    have hall := hhigh (fname1 storage)
    refine ⟨t.commits (fname1 storage), t.commits (fname2 storage), ?_, hconsistent.textOrder, ?_,
      hconsistent.boot, hconsistent.text⟩
    · rw [← Nat.zero_add (l.countP _)]
      exact hcomplete
    · rw [← Nat.zero_add l.length]
      exact hall
  · intro s a hlast
    cases h with
    | start => cases hlast
    | boot hl hb =>
      rw [List.getLast?_concat, Option.some.injEq, Prod.mk.injEq] at hlast
      obtain ⟨rfl, rfl⟩ := hlast
      exact (boot_grown hb).2

/-- A boot cut after it was counted. -/
theorem boots_counted_cut : ∃ t : System,
    History (device noFaults) System.powerUp (main .flash) formatted [(formatted, none)] t ∧
      t.files (fname1 .flash) = some [1] ∧ ∃ boots : ℕ, boots ≤ 1 ∧
        (Blank t.toDisk (fname1 .flash) ∧ boots = 0 ∨
          t.files (fname1 .flash) = some [UInt8.ofNat boots]) := by
  have hsteps := replay_steps reply_follows 13 (main .flash, formatted.powerUp)
  have hboot : History (device noFaults) System.powerUp (main .flash) formatted [(formatted, none)]
      (replay reply 13 (main .flash, formatted.powerUp)).2 := (History.start _).boot (.cut hsteps)
  obtain ⟨⟨boots, texts, -, -, hle, hfile, -⟩, -⟩ := boots_counted .flash hboot
  exact ⟨_, hboot, by rfl, boots, hle, hfile⟩

end NrfProjects.Littlefs
