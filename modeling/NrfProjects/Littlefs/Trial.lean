import NrfProjects.Interaction.Errno
import NrfProjects.Interaction.Returns
import NrfProjects.Littlefs.Updates

/-! # One update that does not go to plan

`trial` is the file system while one of the three functions runs: a chosen kind of call before the
write fails, or the write takes part of its bytes or fails. `Updater.outcome` says where each of the
functions ends, whatever the plan. -/

namespace NrfProjects.Littlefs
set_option autoImplicit false
open Interaction

/-! ## The plan -/

/-- The calls of an update before its write. -/
inductive EarlyCall
  | open
  | stat
  | read
  | seek
  deriving DecidableEq

def earlyCall : {ρ : Type} → Call ρ → Option EarlyCall
  | _, .fsOpen _ _ => some .open
  | _, .fsStat _ => some .stat
  | _, .fsRead _ _ => some .read
  | _, .fsSeek _ _ => some .seek
  | _, _ => none

/-- How many bytes a write of a given length takes, unless it fails. -/
structure WriteBehaviour where
  takes : ℕ → Option ℕ
  le : ∀ len n, takes len = some n → n ≤ len

def WriteBehaviour.full : WriteBehaviour := ⟨some, fun _ _ h => Nat.le_of_eq (Option.some.inj h).symm⟩

structure Plan where
  /-- The early call that fails, if there is one. -/
  early : Option EarlyCall
  write : WriteBehaviour
  /-- What the clock says. -/
  time : ℤ

def Plan.Fails (plan : Plan) {ρ : Type} (c : Call ρ) : Prop :=
  earlyCall c ≠ none ∧ earlyCall c = plan.early

instance (plan : Plan) {ρ : Type} (c : Call ρ) : Decidable (plan.Fails c) :=
  inferInstanceAs (Decidable (_ ∧ _))

/-- The system, and whether an early call has failed. -/
structure Trial extends System where
  failed : Bool

def Trial.start (s : System) : Trial := ⟨s, false⟩

/-- The call does its work, as far as the plan lets a write do it. -/
def Performed (plan : Plan) : {ρ : Type} → Call ρ → System → ρ → System → Prop
  | _, .fsWrite file data, s, r, t =>
    match plan.write.takes data.length with
    | none => r < 0 ∧ t = s
    | some n => OnHandle s file (r < 0 ∧ t = s) fun h =>
      r = n ∧ t = s.withHandle file (some (h.write (data.take n)))
  | _, .kUptimeGet, s, r, t => r = plan.time ∧ t = { s with uptime := r }
  | _, c, s, r, t => Done noFaults c s r t

def trial (plan : Plan) : Device Call Trial where
  answer c s r t :=
    if plan.Fails c then Failed c r ∧ t = { s with failed := true }
    else Performed plan c s.toSystem r t.toSystem ∧ t.failed = s.failed
  move _ _ := False

instance (plan : Plan) : (trial plan).Quiet := ⟨fun _ _ h => h⟩

variable {plan : Plan} {s : Trial} {file : FileVar} {path : String} {data : List UInt8}

/-! ## The calls -/

theorem Plan.Fails.failed {ρ : Type} {c : Call ρ} (h : plan.Fails c) : ∃ r, Failed c r := by
  have hneg := Errno.ioError.neg
  cases c with
  | fsOpen | fsSeek => exact ⟨_, hneg⟩
  | fsStat path => exact ⟨(_, ⟨.file, 0⟩), hneg⟩
  | fsRead file len => exact ⟨(_, []), hneg⟩
  | _ => exact absurd rfl h.1

/-- A call that fails by plan, or can do one thing. -/
theorem returns_planned {ρ : Type} {c : Call ρ} {r₀ : ρ} {t₀ : System} {R : ρ → Trial → Prop}
    (hc : ∀ r t, Performed plan c s.toSystem r t ↔ r = r₀ ∧ t = t₀)
    (hfail : plan.Fails c → ∀ r, Failed c r → R r { s with failed := true })
    (hdone : ¬ plan.Fails c → R r₀ ⟨t₀, s.failed⟩) :
    Returns (trial plan) .none R (liftM c) s := by
  rw [returns_lift]
  by_cases h : plan.Fails c
  · refine ⟨trivial, ?_, fun r t ha => ?_⟩
    · obtain ⟨r, hr⟩ := h.failed
      exact ⟨r, { s with failed := true }, (if_pos h).mpr ⟨hr, rfl⟩⟩
    · obtain ⟨hr, rfl⟩ := (if_pos h).mp ha
      exact hfail h r hr
  · refine ⟨trivial, ⟨r₀, ⟨t₀, s.failed⟩, ?_⟩, fun r t ha => ?_⟩
    · exact (if_neg h).mpr ⟨(hc _ _).mpr ⟨rfl, rfl⟩, rfl⟩
    · obtain ⟨hp, hf⟩ := (if_neg h).mp ha
      obtain ⟨rfl, ht⟩ := (hc _ _).mp hp
      obtain ⟨t, failed⟩ := t
      obtain rfl : t = t₀ := ht
      obtain rfl : failed = s.failed := hf
      exact hdone h

/-- A call that is not an early one. -/
theorem returns_later {ρ : Type} {c : Call ρ} {r₀ : ρ} {t₀ : System} {R : ρ → Trial → Prop}
    (hlate : earlyCall c = none) (hc : ∀ r t, Performed plan c s.toSystem r t ↔ r = r₀ ∧ t = t₀)
    (h : R r₀ ⟨t₀, s.failed⟩) : Returns (trial plan) .none R (liftM c) s :=
  returns_planned hc (fun hf => absurd hlate hf.1) fun _ => h

theorem returns_fsOpen {R : ℤ → Trial → Prop}
    (hfail : plan.early = some .open → ∀ rc < 0, R rc { s with failed := true })
    (hdone : plan.early ≠ some .open → R 0 ⟨s.toSystem.openFile file path, s.failed⟩) :
    Returns (trial plan) .none R (liftM (Call.fsOpen file path)) s :=
  returns_planned (fun _ _ => Iff.rfl) (fun h => hfail h.2.symm)
    fun h => hdone fun heq => h ⟨by simp [earlyCall], heq.symm⟩

theorem returns_fsStat {R : ℤ × Dirent → Trial → Prop} (hs : s.files path = some data)
    (hfail : plan.early = some .stat → ∀ r, r.1 < 0 → R r { s with failed := true })
    (hdone : plan.early ≠ some .stat → R (0, ⟨.file, data.length⟩) s) :
    Returns (trial plan) .none R (liftM (Call.fsStat path)) s := by
  have hc : ∀ r t, Performed plan (.fsStat path) s.toSystem r t ↔
      r = (0, ⟨.file, data.length⟩) ∧ t = s.toSystem := by
    intro r t
    simp only [Performed, Done, hs]
  exact returns_planned hc (fun h => hfail h.2.symm)
    fun h => hdone fun heq => h ⟨by simp [earlyCall], heq.symm⟩

theorem returns_fsRead {h : OpenFile} {len : ℕ} {R : ℤ × List UInt8 → Trial → Prop}
    (hs : s.handles file = some h)
    (hfail : plan.early = some .read → ∀ r, r.1 < 0 → R r { s with failed := true })
    (hdone : plan.early ≠ some .read → R (((h.chunk len).length : ℤ), h.chunk len)
      ⟨s.toSystem.withHandle file (some (h.read len)), s.failed⟩) :
    Returns (trial plan) .none R (liftM (Call.fsRead file len)) s :=
  returns_planned (fun _ _ => onHandle_some hs) (fun h => hfail h.2.symm)
    fun h => hdone fun heq => h ⟨by simp [earlyCall], heq.symm⟩

theorem returns_fsSeek {h : OpenFile} {pos : ℕ} {R : ℤ → Trial → Prop}
    (hs : s.handles file = some h)
    (hfail : plan.early = some .seek → ∀ rc < 0, R rc { s with failed := true })
    (hdone : plan.early ≠ some .seek →
      R 0 ⟨s.toSystem.withHandle file (some (h.seek pos)), s.failed⟩) :
    Returns (trial plan) .none R (liftM (Call.fsSeek file pos)) s :=
  returns_planned (fun _ _ => onHandle_some hs) (fun h => hfail h.2.symm)
    fun h => hdone fun heq => h ⟨by simp [earlyCall], heq.symm⟩

theorem returns_fsTruncate {h : OpenFile} {len : ℕ} {R : ℤ → Trial → Prop}
    (hs : s.handles file = some h)
    (hdone : R 0 ⟨s.toSystem.withHandle file (some (h.truncate len)), s.failed⟩) :
    Returns (trial plan) .none R (liftM (Call.fsTruncate file len)) s :=
  returns_later rfl (fun _ _ => onHandle_some hs) hdone

theorem returns_fsClose {h : OpenFile} {R : ℤ → Trial → Prop} (hs : s.handles file = some h)
    (hdone : R 0 ⟨s.toSystem.closeFile file h, s.failed⟩) :
    Returns (trial plan) .none R (liftM (Call.fsClose file)) s :=
  returns_later rfl (fun _ _ => onHandle_some hs) hdone

theorem returns_kUptimeGet {R : ℤ → Trial → Prop}
    (hdone : R plan.time ⟨{ s.toSystem with uptime := plan.time }, s.failed⟩) :
    Returns (trial plan) .none R (liftM Call.kUptimeGet) s := by
  have hc : ∀ r t, Performed plan .kUptimeGet s.toSystem r t ↔
      r = plan.time ∧ t = { s.toSystem with uptime := plan.time } := by
    intro r t
    refine and_congr_right fun hr => ?_
    rw [hr]
  exact returns_later rfl hc hdone

theorem returns_fsWrite {h : OpenFile} {R : ℤ → Trial → Prop} (hs : s.handles file = some h)
    (hfail : plan.write.takes data.length = none → ∀ rc < 0, R rc s)
    (hdone : ∀ n, plan.write.takes data.length = some n →
      R n ⟨s.toSystem.withHandle file (some (h.write (data.take n))), s.failed⟩) :
    Returns (trial plan) .none R (liftM (Call.fsWrite file data)) s := by
  cases htakes : plan.write.takes data.length with
  | some n =>
    have hc : ∀ r t, Performed plan (.fsWrite file data) s.toSystem r t ↔
        r = n ∧ t = s.toSystem.withHandle file (some (h.write (data.take n))) := by
      intro r t
      simp only [Performed, htakes]
      exact onHandle_some hs
    exact returns_later rfl hc (hdone n htakes)
  | none =>
    have hnot : ¬ plan.Fails (.fsWrite file data) := fun h => h.1 rfl
    have hanswer : ∀ r t, (trial plan).answer (.fsWrite file data) s r t ↔
        (r < 0 ∧ t.toSystem = s.toSystem) ∧ t.failed = s.failed := by
      intro r t
      simp only [trial, if_neg hnot, Performed, htakes]
    rw [returns_lift]
    refine ⟨trivial, ⟨_, s, (hanswer _ _).mpr ⟨⟨Errno.ioError.neg, rfl⟩, rfl⟩⟩, fun r t ha => ?_⟩
    obtain ⟨⟨hr, ht⟩, hf⟩ := (hanswer r t).mp ha
    obtain ⟨t, failed⟩ := t
    obtain rfl : t = s.toSystem := ht
    obtain rfl : failed = s.failed := hf
    exact hfail htakes r hr

/-! ## One function -/

/-- What a function would write, and what the write leaves in the file if it takes `n` bytes. -/
structure Update where
  image : List UInt8
  final : ℕ → List UInt8
  /-- An early call fails and the function goes on. -/
  ignores : Prop

/-- Where the steps between `fs_open` and `fs_close` end. -/
inductive StepOutcome (plan : Plan) (path : String) (data : List UInt8) (v : Update) :
    ℤ → OpenFile → Bool → Prop
  | stopped {rc : ℤ} {pos : ℕ} (hrc : rc < 0) (hearly : plan.early ≠ none) (hnot : ¬ v.ignores) :
      StepOutcome plan path data v rc ⟨path, data, pos, false⟩ true
  | unwritten {rc : ℤ} {pos : ℕ} {failed : Bool} (hrc : rc < 0)
      (htakes : plan.write.takes v.image.length = none) (hfailed : failed = true ↔ v.ignores) :
      StepOutcome plan path data v rc ⟨path, data, pos, false⟩ failed
  | written {rc : ℤ} {pos n : ℕ} {failed : Bool} (hrc : 0 ≤ rc)
      (htakes : plan.write.takes v.image.length = some n) (hfailed : failed = true ↔ v.ignores) :
      StepOutcome plan path data v rc ⟨path, v.final n, pos, true⟩ failed

/-- Where the whole function ends. -/
inductive Outcome (plan : Plan) (path : String) (v : Update) (s : System) : ℤ → Trial → Prop
  | stopped {rc : ℤ} {u : Trial} (hrc : rc < 0) (hearly : plan.early ≠ none) (hnot : ¬ v.ignores)
      (hdisk : u.toDisk = s.toDisk ∨ u.toDisk = s.toDisk.create path) :
      Outcome plan path v s rc u
  | unwritten {rc : ℤ} {u : Trial} (hrc : rc < 0)
      (htakes : plan.write.takes v.image.length = none)
      (hdisk : u.toDisk = s.toDisk.create path) : Outcome plan path v s rc u
  | written {n : ℕ} {u : Trial} (htakes : plan.write.takes v.image.length = some n)
      (hfailed : u.failed = true ↔ v.ignores)
      (hdisk : u.toDisk = (s.toDisk.create path).commit path (v.final n)) :
      Outcome plan path v s 0 u

theorem onFile_outcome {σ : Type} {s : System} {v : Update} (static : σ)
    (steps : Prog Call (ℤ × σ)) (hopen : plan.early = some .open → ¬ v.ignores)
    (hsteps : ∀ t : Trial, t.failed = false → t.toDisk = s.toDisk.create path →
      t.handles file = some (.opened path (s.content path)) →
      Returns (trial plan) .none (fun x u => u.toDisk = t.toDisk ∧ ∃ h, u.handles file = some h ∧
        StepOutcome plan path (s.content path) v x.1 h u.failed) steps t) :
    Returns (trial plan) .none (fun x u => Outcome plan path v s x.1 u)
      (onFile file path static steps) (.start s) := by
  unfold onFile
  rw [returns_bind]
  apply returns_fsOpen
  · intro hearly rc hrc
    rw [if_pos hrc, returns_pure]
    exact .stopped hrc (by simp [hearly]) (hopen hearly) (.inl rfl)
  · intro _
    rw [if_neg (Int.lt_irrefl 0), returns_bind]
    refine (hsteps _ rfl rfl (Function.update_self ..)).imp fun x u hu => ?_
    obtain ⟨rc, static⟩ := x
    obtain ⟨hdisk, h, hh, hout⟩ := hu
    dsimp only at hout ⊢
    rw [returns_bind]
    apply returns_fsClose hh
    rw [if_neg (Int.lt_irrefl 0), returns_pure]
    have hdisk' : u.toDisk = s.toDisk.create path := hdisk
    generalize hf : u.failed = failed at hout
    cases hout with
    | stopped hrc hearly hnot =>
      rw [if_pos hrc]
      exact .stopped hrc hearly hnot (.inr hdisk')
    | unwritten hrc htakes hfailed =>
      rw [if_pos hrc]
      exact .unwritten hrc htakes hdisk'
    | written hrc htakes hfailed =>
      rw [if_neg (Int.not_lt.mpr hrc)]
      refine .written htakes (hf.symm ▸ hfailed) ?_
      show u.toDisk.commit path _ = _
      rw [hdisk']

end NrfProjects.Littlefs
