import NrfProjects.Littlefs.Trial

/-! # What a failing call leaves of a file

The steps of each function stop at the first failing call and leave the file alone, except that the
text file is rewritten, with a count from the last call, when it cannot be read. -/

namespace NrfProjects.Littlefs
set_option autoImplicit false
open Interaction Encoding

variable {plan : Plan} {t : Trial} {d : Disk} {file : FileVar} {path : String}
  {data : List UInt8} {v : Update}

/-! ## The steps of the three functions -/

/-- What the steps of a function leave. -/
abbrev StepsEnd (plan : Plan) (file : FileVar) (path : String) (data : List UInt8) (v : Update)
    (d : Disk) (rc : ℤ) (u : Trial) : Prop :=
  u.toDisk = d ∧ ∃ h, u.handles file = some h ∧ StepOutcome plan path data v rc h u.failed

/-- Seek to the start, and write the image. -/
theorem writeBack_outcome {σ : Type} (static : σ) {image : List UInt8} {pos : ℕ}
    (himage : v.image = image) (hfinal : ∀ n, v.final n = overwrite data 0 (image.take n))
    (hdisk : t.toDisk = d) (ht : t.handles file = some ⟨path, data, pos, false⟩)
    (hfailed : t.failed = true ↔ v.ignores) (hseek : plan.early = some .seek → ¬ v.ignores) :
    Returns (trial plan) .none (fun x u => StepsEnd plan file path data v d x.1 u) (do
      let rc ← Call.fsSeek file 0
      if rc < 0 then
        return (rc, static)
      let rc ← Call.fsWrite file image
      return (rc, static)) t := by
  subst himage
  rw [returns_bind]
  apply returns_fsSeek ht
  · intro hearly rc hrc
    rw [if_pos hrc, returns_pure]
    exact ⟨hdisk, _, ht, .stopped hrc (by simp [hearly]) (hseek hearly)⟩
  · intro _
    rw [if_neg (Int.lt_irrefl 0), returns_bind]
    apply returns_fsWrite (withHandle_handles _)
    · intro htakes rc hrc
      rw [returns_pure]
      exact ⟨hdisk, _, withHandle_handles _, .unwritten hrc htakes hfailed⟩
    · intro n htakes
      rw [returns_pure]
      refine ⟨hdisk, _, withHandle_handles _, ?_⟩
      have hwritten : StepOutcome plan path data v n
          ⟨path, v.final n, 0 + (v.image.take n).length, true⟩ t.failed :=
        .written (Int.natCast_nonneg n) htakes hfailed
      rwa [hfinal] at hwritten

def bootCountUpdate (data : List UInt8) : Update where
  image := [data.headD 0 + 1]
  final n := overwrite data 0 ([data.headD 0 + 1].take n)
  ignores := False

theorem bootCountSteps_outcome (hdisk : t.toDisk = d) (hfailed : t.failed = false)
    (ht : t.handles .bootCount = some (.opened path data)) :
    Returns (trial plan) .none
      (fun x u => StepsEnd plan .bootCount path data (bootCountUpdate data) d x.1 u)
      bootCountSteps t := by
  unfold bootCountSteps
  rw [returns_bind]
  apply returns_fsRead ht
  · intro hearly r hr
    obtain ⟨rc, bytes⟩ := r
    dsimp only at hr ⊢
    rw [if_pos hr, returns_pure]
    exact ⟨hdisk, _, ht, .stopped hr (by simp [hearly]) not_false⟩
  · intro _
    have hpos : ¬ (((OpenFile.opened path data).chunk 1).length : ℤ) < 0 := by omega
    have hhead : ((OpenFile.opened path data).chunk 1).headD 0 = data.headD 0 := by
      cases data <;> rfl
    dsimp only
    rw [if_neg hpos, hhead]
    exact writeBack_outcome () rfl (fun _ => rfl) hdisk (withHandle_handles _)
      (by simp [hfailed, bootCountUpdate]) fun _ => not_false

/-- Where the calls before the seek end: with a first failure, or with the value to go on with. -/
inductive Prepared {β : Type} (plan : Plan) (path : String) (data : List UInt8) (ignores : Prop)
    (b : β) : ℤ × β → OpenFile → Bool → Prop
  | stopped {rc : ℤ} {b' : β} {pos : ℕ} (hrc : rc < 0) (hearly : plan.early ≠ none)
      (hnot : ¬ ignores) : Prepared plan path data ignores b (rc, b') ⟨path, data, pos, false⟩ true
  | ready {rc : ℤ} {pos : ℕ} {failed : Bool} (hrc : 0 ≤ rc) (hfailed : failed = true ↔ ignores) :
      Prepared plan path data ignores b (rc, b) ⟨path, data, pos, false⟩ failed

def binaryUpdate (data q : List UInt8) : Update where
  image := q
  final n := overwrite data 0 (q.take n)
  ignores := False

theorem nextPattern_outcome {p q : List UInt8} (hdisk : t.toDisk = d) (hfailed : t.failed = false)
    (hdata : t.files path = some data) (ht : t.handles .binary = some (.opened path data))
    (hq : patternFor data p = some q) :
    Returns (trial plan) .none (fun x u => u.toDisk = d ∧ ∃ h, u.handles .binary = some h ∧
      Prepared plan path data False q x h u.failed) (nextPattern path p) t := by
  have hnot : t.failed = true ↔ False := by simp [hfailed]
  unfold nextPattern
  rw [returns_bind]
  apply returns_fsStat hdata
  · intro hearly r hr
    obtain ⟨rc, dirent⟩ := r
    dsimp only at hr ⊢
    rw [if_pos hr, returns_pure]
    exact ⟨hdisk, _, ht, .stopped hr (by simp [hearly]) not_false⟩
  · intro _
    simp only [Int.lt_irrefl, if_false, true_and, List.length_eq_zero_iff]
    unfold patternFor at hq
    by_cases hempty : data = []
    · rw [if_pos hempty] at hq
      rw [if_pos hempty, hq]
      exact .ret ⟨hdisk, _, ht, .ready le_rfl hnot⟩
    · rw [if_neg hempty] at hq
      rw [if_neg hempty, returns_bind]
      apply returns_fsRead ht
      · intro hearly r hr
        obtain ⟨rc, bytes⟩ := r
        dsimp only at hr ⊢
        rw [if_pos hr, returns_pure]
        exact ⟨hdisk, _, ht, .stopped hr (by simp [hearly]) not_false⟩
      · intro _
        have hchunk : (OpenFile.opened path data).chunk TEST_FILE_SIZE =
            data.take TEST_FILE_SIZE := rfl
        have hpos : ¬ ((data.take TEST_FILE_SIZE).length : ℤ) < 0 := by omega
        dsimp only
        rw [hchunk, if_neg hpos, hq]
        exact .ret ⟨hdisk, _, withHandle_handles _, .ready (Int.natCast_nonneg _) hnot⟩

theorem binarySteps_outcome {p q : List UInt8} (hdisk : t.toDisk = d) (hfailed : t.failed = false)
    (hdata : t.files path = some data) (ht : t.handles .binary = some (.opened path data))
    (hq : patternFor data p = some q) :
    Returns (trial plan) .none
      (fun x u => StepsEnd plan .binary path data (binaryUpdate data q) d x.1 u)
      (binarySteps path p) t := by
  unfold binarySteps
  rw [returns_bind]
  refine (nextPattern_outcome hdisk hfailed hdata ht hq).imp fun x u hu => ?_
  obtain ⟨hu, h, hh, hprepared⟩ := hu
  generalize hf : u.failed = failed at hprepared
  cases hprepared with
  | stopped hrc hearly hnot =>
    dsimp only
    rw [if_pos hrc, returns_pure]
    exact ⟨hu, _, hh, hf.symm ▸ .stopped hrc hearly hnot⟩
  | ready hrc hfailed =>
    dsimp only
    rw [if_neg (Int.not_lt.mpr hrc)]
    exact writeBack_outcome q rfl (fun _ => rfl) hu hh (hf.symm ▸ hfailed) fun _ => not_false

/-- The count that `littlefs_text_file_write` goes on with: the static one if the read failed. -/
def countTaken (plan : Plan) (data : List UInt8) (writeCount : ℤ) : ℤ :=
  if plan.early = some .read ∧ data ≠ [] then writeCount else countIn data writeCount

def textImage (plan : Plan) (data : List UInt8) (writeCount : ℤ) : List UInt8 :=
  textContent (toInt32 (countTaken plan data writeCount + 1)) (toInt32 plan.time)

def textUpdate (plan : Plan) (data : List UInt8) (writeCount : ℤ) : Update where
  image := textImage plan data writeCount
  final n := resize (overwrite data 0 ((textImage plan data writeCount).take n))
    (textImage plan data writeCount).length
  ignores := plan.early = some .read ∧ data ≠ []

theorem oldCount_outcome {writeCount : ℤ} (hdisk : t.toDisk = d) (hfailed : t.failed = false)
    (hdata : t.files path = some data) (ht : t.handles .text = some (.opened path data)) :
    Returns (trial plan) .none (fun x u => u.toDisk = d ∧ ∃ h, u.handles .text = some h ∧
      Prepared plan path data (plan.early = some .read ∧ data ≠ [])
        (countTaken plan data writeCount) x h u.failed) (oldCount path writeCount) t := by
  unfold oldCount
  rw [returns_bind]
  apply returns_fsStat hdata
  · intro hearly r hr
    obtain ⟨rc, dirent⟩ := r
    dsimp only at hr ⊢
    rw [if_pos hr, returns_pure]
    exact ⟨hdisk, _, ht, .stopped hr (by simp [hearly]) (by simp [hearly])⟩
  · intro _
    simp only [Int.lt_irrefl, if_false, true_and, List.length_eq_zero_iff]
    by_cases hempty : data = []
    · have htaken : countTaken plan data writeCount = 0 := by simp [countTaken, countIn, hempty]
      rw [if_pos hempty, returns_pure, htaken]
      exact ⟨hdisk, _, ht, .ready le_rfl (by simp [hfailed, hempty])⟩
    · rw [if_neg hempty, returns_bind]
      apply returns_fsRead ht
      · intro hearly r hr
        obtain ⟨rc, bytes⟩ := r
        have htaken : countTaken plan data writeCount = writeCount :=
          if_pos ⟨hearly, hempty⟩
        dsimp only at hr ⊢
        rw [if_neg (by omega), returns_pure, htaken]
        exact ⟨hdisk, _, ht, .ready le_rfl (iff_of_true rfl ⟨hearly, hempty⟩)⟩
      · intro hearly
        have hchunk : (OpenFile.opened path data).chunk 31 = data.take 31 := rfl
        have hpos : ((data.take 31).length : ℤ) > 0 := by
          have := List.length_pos_iff.mpr hempty
          rw [List.length_take]
          omega
        have htaken : countTaken plan data writeCount = sscanfCount (data.take 31) writeCount := by
          rw [countTaken, if_neg fun h => hearly h.1, countIn, if_neg hempty]
        dsimp only
        rw [hchunk, if_pos hpos, returns_pure, htaken]
        exact ⟨hdisk, _, withHandle_handles _, .ready le_rfl (by simp [hfailed, hearly])⟩

theorem textSteps_outcome {writeCount : ℤ} (hdisk : t.toDisk = d) (hfailed : t.failed = false)
    (hdata : t.files path = some data) (ht : t.handles .text = some (.opened path data)) :
    Returns (trial plan) .none
      (fun x u => StepsEnd plan .text path data (textUpdate plan data writeCount) d x.1 u)
      (textSteps path writeCount) t := by
  unfold textSteps
  rw [returns_bind]
  refine (oldCount_outcome hdisk hfailed hdata ht).imp fun x u hu => ?_
  obtain ⟨hu, h, hh, hprepared⟩ := hu
  generalize hf : u.failed = failed at hprepared
  cases hprepared with
  | stopped hrc hearly hnot =>
    dsimp only
    rw [if_pos hrc, returns_pure]
    exact ⟨hu, _, hh, hf.symm ▸ .stopped hrc hearly hnot⟩
  | ready hrc hfailed =>
    dsimp only
    rw [if_neg (Int.not_lt.mpr hrc), returns_bind]
    apply returns_kUptimeGet
    rw [snprintf_textContent (toInt32_isInt32 _) (toInt32_isInt32 _), returns_bind]
    apply returns_fsSeek (s := ⟨{ u.toSystem with uptime := plan.time }, u.failed⟩) hh
    · intro hearly rc hrc
      rw [if_pos hrc, returns_pure]
      exact ⟨hu, _, hh, .stopped hrc (by simp [hearly]) (by simp [textUpdate, hearly])⟩
    · intro _
      rw [if_neg (Int.lt_irrefl 0), returns_bind]
      apply returns_fsWrite (withHandle_handles _)
      · intro htakes rc hrc
        rw [if_pos hrc, returns_pure]
        exact ⟨hu, _, withHandle_handles _, .unwritten hrc htakes (hf.symm ▸ hfailed)⟩
      · intro n htakes
        rw [if_neg (Int.not_lt.mpr (Int.natCast_nonneg n)), returns_bind]
        apply returns_fsTruncate (withHandle_handles _)
        rw [returns_pure]
        exact ⟨hu, _, withHandle_handles _, .written le_rfl htakes (hf.symm ▸ hfailed)⟩

/-! ## The functions -/

/-- The three functions, with the statics of those that have one. -/
inductive Updater
  | increase
  | text (writeCount : ℤ)
  | binary (fileTestPattern : {p : List UInt8 // p.length = TEST_FILE_SIZE})

namespace Updater

def run (path : String) : Updater → Prog Call ℤ
  | .increase => littlefsIncreaseInfileValue path
  | .text writeCount => do return (← littlefsTextFileWrite path writeCount).1
  | .binary p => do return (← littlefsBinaryFileAdj path p.1).1

/-- What a function makes of a file that holds `data`. -/
def update (plan : Plan) (data : List UInt8) : Updater → Update
  | .increase => bootCountUpdate data
  | .text writeCount => textUpdate plan data writeCount
  | .binary p => binaryUpdate data ((patternFor data p.1).getD [])

/-- Every run of a function under a plan returns, and ends in one of three ways. -/
theorem outcome (f : Updater) (plan : Plan) (path : String) (s : System) :
    Returns (trial plan) .none
      (fun rc u => Outcome plan path (f.update plan (s.content path)) s rc u) (f.run path)
      (.start s) := by
  have hfiles : ∀ t : Trial, t.toDisk = s.toDisk.create path →
      t.files path = some (s.content path) := fun t ht => by rw [ht, Disk.create_self]
  cases f with
  | increase =>
    unfold run littlefsIncreaseInfileValue
    rw [returns_bind]
    refine (onFile_outcome () bootCountSteps (fun _ => not_false) ?_).imp fun x u h => .ret h
    intro t hfailed hdisk ht
    exact bootCountSteps_outcome rfl hfailed ht
  | text writeCount =>
    unfold run littlefsTextFileWrite
    rw [returns_bind]
    refine (onFile_outcome writeCount _ (fun h => by simp [update, textUpdate, h]) ?_).imp
      fun x u h => .ret h
    intro t hfailed hdisk ht
    exact textSteps_outcome rfl hfailed (hfiles t hdisk) ht
  | binary p =>
    obtain ⟨q, hq, -⟩ := patternFor_inside (s.content path) p.2
    unfold run littlefsBinaryFileAdj
    rw [returns_bind]
    refine (onFile_outcome p.1 _ (fun _ => not_false) ?_).imp fun x u h => .ret h
    intro t hfailed hdisk ht
    rw [update, hq]
    exact binarySteps_outcome rfl hfailed (hfiles t hdisk) ht hq

/-- The text file's function, the only one with a failure it ignores. -/
def isText : Updater → Bool
  | .text _ => true
  | _ => false

theorem ignores_iff {f : Updater} : (f.update plan data).ignores ↔
    f.isText = true ∧ plan.early = some .read ∧ data ≠ [] := by
  cases f <;> simp [update, isText, bootCountUpdate, textUpdate, binaryUpdate]

end Updater

/-! ## Early failures -/

/-- An early failure is answered with a negative code, and the file is as it was, or new and
empty. -/
def EarlyFailureReported (path : String) (s : System) (rc : ℤ) (u : Trial) : Prop :=
  u.failed = true → rc < 0 ∧ (u.toDisk = s.toDisk ∨ u.toDisk = s.toDisk.create path)

section EarlyFailures
variable {s : System} {rc : ℤ} {u : Trial}

theorem Outcome.reported (h : Outcome plan path v s rc u) (hfull : plan.write = .full)
    (hnot : ¬ v.ignores) : EarlyFailureReported path s rc u := by
  intro hfailed
  cases h with
  | stopped hrc _ _ hdisk => exact ⟨hrc, hdisk⟩
  | unwritten _ htakes _ => simp [hfull, WriteBehaviour.full] at htakes
  | written _ hiff _ => exact absurd (hiff.mp hfailed) hnot

theorem Outcome.not_reported (h : Outcome plan path v s rc u) (hfull : plan.write = .full)
    (hv : v.ignores) : ¬ EarlyFailureReported path s rc u := by
  intro hreported
  cases h with
  | stopped _ _ hnot _ => exact hnot hv
  | unwritten _ htakes _ => simp [hfull, WriteBehaviour.full] at htakes
  | written _ hiff _ => exact absurd (hreported (hiff.mpr hv)).1 (Int.lt_irrefl 0)

end EarlyFailures

theorem not_returns_reported {f : Updater} {s : System} (hfull : plan.write = .full)
    (hv : (f.update plan (s.content path)).ignores) :
    ¬ Returns (trial plan) .none (EarlyFailureReported path s) (f.run path) (.start s) := by
  intro h
  obtain ⟨rc, u, hout, hreported⟩ := (f.outcome plan path s).meet h
  exact hout.not_reported hfull hv hreported

/-- **Early failures.** A failing open, stat, read or seek is reported, and leaves the file as it
was, except when the text file holds something and cannot be read. -/
theorem early_failure_reported_iff (f : Updater) (k : EarlyCall) (time : ℤ) (path : String)
    (s : System) :
    Returns (trial ⟨some k, .full, time⟩) .none (EarlyFailureReported path s) (f.run path)
      (.start s) ↔ ¬ (f.isText = true ∧ k = .read ∧ s.content path ≠ []) := by
  have hiff : (f.update ⟨some k, .full, time⟩ (s.content path)).ignores ↔
      f.isText = true ∧ k = .read ∧ s.content path ≠ [] := by
    rw [Updater.ignores_iff, Option.some.injEq]
  rw [← hiff]
  constructor
  · intro h hv
    exact not_returns_reported rfl hv h
  · intro hnot
    exact (f.outcome _ path s).imp fun rc u hout => hout.reported rfl hnot

/-- A text file with count 5 that cannot be read is rewritten. -/
theorem unread_text_rewritten :
    ¬ Returns (trial ⟨some .read, .full, 0⟩) .none
      (EarlyFailureReported "/lfs/test.txt" (.holding "/lfs/test.txt" (textContent 5 0)))
      ((Updater.text 0).run "/lfs/test.txt")
      (.start (.holding "/lfs/test.txt" (textContent 5 0))) := by
  apply not_returns_reported rfl
  rw [Updater.ignores_iff, System.holding_content]
  exact ⟨rfl, rfl, textContent_ne_nil 5 0⟩

end NrfProjects.Littlefs
