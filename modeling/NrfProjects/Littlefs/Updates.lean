import NrfProjects.Littlefs.FileSystem
import NrfProjects.Littlefs.TextFile

/-! # What the three functions make of a file

With no failing call, each function leaves the disk as it found it until it closes its file, and
then commits a new image of it, which depends on the old contents only. -/

namespace NrfProjects.Littlefs
set_option autoImplicit false
open Interaction Encoding

/-- The disk meets `I` at every call, and no array is accessed outside. -/
def diskWatch (I : Disk → Prop) : Watch Call System where
  atLoop s := I s.toDisk
  atCall
    | .memFault, _ => False
    | _, s => I s.toDisk

variable {I : Disk → Prop} {W : Watch Call System} {s t : System} {file : FileVar} {path : String}

/-! ## The calls -/

/-- A call that can only do one thing. -/
theorem safe_done {ρ : Type} {c : Call ρ} {r : ρ} {Q : ρ → System → Prop}
    (hc : ∀ r' t', Done noFaults c s r' t' ↔ r' = r ∧ t' = t) :
    Safe (device noFaults) W (liftM c) s Q ↔ W.atCall c s ∧ Q r t := by
  rw [safe_lift]
  refine and_congr_right fun _ => ⟨fun h => h r t ?_, fun h r' t' ha => ?_⟩
  · rw [answer_noFaults, hc]
    exact ⟨rfl, rfl⟩
  · rw [answer_noFaults, hc] at ha
    obtain ⟨rfl, rfl⟩ := ha
    exact h

theorem safe_fsOpen {Q : ℤ → System → Prop} :
    Safe (device noFaults) W (liftM (Call.fsOpen file path)) s Q ↔
      W.atCall (.fsOpen file path) s ∧ Q 0 (s.openFile file path) :=
  safe_done fun _ _ => Iff.rfl

theorem safe_fsStat {data : List UInt8} {Q : ℤ × Dirent → System → Prop}
    (h : s.files path = some data) :
    Safe (device noFaults) W (liftM (Call.fsStat path)) s Q ↔
      W.atCall (.fsStat path) s ∧ Q (0, ⟨.file, data.length⟩) s := by
  apply safe_done
  intro r t
  simp only [Done, h]

theorem safe_fsRead {h : OpenFile} {len : ℕ} {Q : ℤ × List UInt8 → System → Prop}
    (hs : s.handles file = some h) :
    Safe (device noFaults) W (liftM (Call.fsRead file len)) s Q ↔
      W.atCall (.fsRead file len) s ∧
        Q (((h.chunk len).length : ℤ), h.chunk len) (s.withHandle file (some (h.read len))) :=
  safe_done fun _ _ => onHandle_some hs

theorem safe_fsSeek {h : OpenFile} {pos : ℕ} {Q : ℤ → System → Prop}
    (hs : s.handles file = some h) :
    Safe (device noFaults) W (liftM (Call.fsSeek file pos)) s Q ↔
      W.atCall (.fsSeek file pos) s ∧ Q 0 (s.withHandle file (some (h.seek pos))) :=
  safe_done fun _ _ => onHandle_some hs

theorem safe_fsWrite {h : OpenFile} {data : List UInt8} {Q : ℤ → System → Prop}
    (hs : s.handles file = some h) :
    Safe (device noFaults) W (liftM (Call.fsWrite file data)) s Q ↔
      W.atCall (.fsWrite file data) s ∧
        Q data.length (s.withHandle file (some (h.write data))) := by
  apply safe_done
  intro r t
  rw [Done, onHandle_some hs]
  constructor
  · rintro ⟨n, rfl, hr, ht⟩
    rw [List.take_length] at ht
    exact ⟨hr, ht⟩
  · rintro ⟨hr, ht⟩
    refine ⟨data.length, rfl, hr, ?_⟩
    rw [List.take_length]
    exact ht

theorem safe_fsTruncate {h : OpenFile} {len : ℕ} {Q : ℤ → System → Prop}
    (hs : s.handles file = some h) :
    Safe (device noFaults) W (liftM (Call.fsTruncate file len)) s Q ↔
      W.atCall (.fsTruncate file len) s ∧ Q 0 (s.withHandle file (some (h.truncate len))) :=
  safe_done fun _ _ => onHandle_some hs

theorem safe_fsClose {h : OpenFile} {Q : ℤ → System → Prop} (hs : s.handles file = some h) :
    Safe (device noFaults) W (liftM (Call.fsClose file)) s Q ↔
      W.atCall (.fsClose file) s ∧ Q 0 (s.closeFile file h) :=
  safe_done fun _ _ => onHandle_some hs

theorem safe_kUptimeGet {Q : ℤ → System → Prop} :
    Safe (device noFaults) W (liftM Call.kUptimeGet) s Q ↔
      W.atCall .kUptimeGet s ∧ ∀ r, Q r { s with uptime := r } := by
  rw [safe_lift]
  refine and_congr_right fun _ => ⟨fun h r => h r _ (.inl rfl), fun h r t ha => ?_⟩
  rw [answer_noFaults] at ha
  obtain rfl : t = { s with uptime := r } := ha
  exact h r

theorem safe_inside {α : Type} {x : Option α} {a : α} {Q : α → System → Prop} (hx : x = some a) :
    Safe (device noFaults) W (inside x) s Q ↔ Q a s := by
  rw [hx]
  exact safe_pure

@[simp] theorem withHandle_handles (h : Option OpenFile) :
    (s.withHandle file h).handles file = h := Function.update_self ..

/-! ## Opening and closing -/

/-- The steps between `fs_open` and `fs_close` leave this image of the file in its working copy. -/
def Rewritten (file : FileVar) (path : String) (image : List UInt8) (s u : System) : Prop :=
  u.toDisk = s.toDisk ∧ ∃ pos, u.handles file = some ⟨path, image, pos, true⟩

theorem onFile_spec {σ : Type} (static : σ) (steps : Prog Call (ℤ × σ))
    (R : σ → ℤ → List UInt8 → Prop) (h0 : I s.toDisk) (h1 : I (s.toDisk.create path))
    (hsteps : ∀ t : System, t.toDisk = s.toDisk.create path →
      t.handles file = some (.opened path (s.content path)) →
      Safe (device noFaults) (diskWatch I) steps t fun x u =>
        0 ≤ x.1 ∧ ∃ image, R x.2 u.uptime image ∧ Rewritten file path image t u) :
    Safe (device noFaults) (diskWatch I) (onFile file path static steps) s fun x u =>
      x.1 = 0 ∧ ∃ image, R x.2 u.uptime image ∧
        u.toDisk = (s.toDisk.create path).commit path image := by
  unfold onFile
  rw [safe_bind, safe_fsOpen]
  refine ⟨h0, ?_⟩
  simp only [Int.lt_irrefl, if_false, safe_bind]
  refine (hsteps _ rfl (Function.update_self ..)).imp ?_
  rintro ⟨rc, static⟩ u ⟨hrc, image, hR, hdisk, pos, hu⟩
  have hneg : ¬ rc < 0 := Int.not_lt.mpr hrc
  rw [safe_fsClose hu]
  refine ⟨?_, ?_⟩
  · show I u.toDisk
    rw [hdisk]
    exact h1
  · simp only [Int.lt_irrefl, if_false, safe_pure, if_neg hneg]
    refine ⟨trivial, image, hR, ?_⟩
    show u.toDisk.commit path image = (s.toDisk.create path).commit path image
    rw [hdisk]
    rfl

/-! ## The three functions -/

theorem bootCountSteps_spec {data : List UInt8} (hI : I s.toDisk)
    (hs : s.handles .bootCount = some (.opened path data)) :
    Safe (device noFaults) (diskWatch I) bootCountSteps s fun x u =>
      0 ≤ x.1 ∧ ∃ image, image = (data.headD 0 + 1) :: data.drop 1 ∧
        Rewritten .bootCount path image s u := by
  unfold bootCountSteps
  rw [safe_bind, safe_fsRead hs]
  refine ⟨hI, ?_⟩
  have hpos : ¬ (((OpenFile.opened path data).chunk 1).length : ℤ) < 0 := by omega
  simp only [if_neg hpos, safe_bind]
  rw [safe_fsSeek (withHandle_handles _)]
  refine ⟨hI, ?_⟩
  simp only [Int.lt_irrefl, if_false, safe_bind]
  rw [safe_fsWrite (withHandle_handles _)]
  refine ⟨hI, ?_⟩
  rw [safe_pure]
  refine ⟨by omega, _, rfl, rfl, 1, ?_⟩
  rw [withHandle_handles]
  have hhead : ((OpenFile.opened path data).chunk 1).headD 0 = data.headD 0 := by
    cases data <;> rfl
  rw [hhead]
  simp [OpenFile.write, OpenFile.seek, OpenFile.read, OpenFile.opened, overwrite_zero]

/-- The pattern that `littlefs_binary_file_adj` computes for a file that holds `data`. -/
def patternFor (data fileTestPattern : List UInt8) : Option (List UInt8) :=
  if data = [] then initPattern fileTestPattern TEST_FILE_SIZE
  else incrPattern (data.take TEST_FILE_SIZE ++
    fileTestPattern.drop (data.take TEST_FILE_SIZE).length) TEST_FILE_SIZE 0x1

theorem patternFor_inside (data : List UInt8) {p : List UInt8} (hp : p.length = TEST_FILE_SIZE) :
    ∃ q, patternFor data p = some q ∧ q.length = TEST_FILE_SIZE := by
  unfold patternFor
  by_cases hdata : data = []
  · rw [if_pos hdata]
    exact initPattern_inside (by decide) hp
  · rw [if_neg hdata]
    apply incrPattern_inside _ (by decide)
    rw [List.length_append, List.length_drop, List.length_take]
    omega

theorem nextPattern_spec {data p q : List UInt8} (hI : I s.toDisk) (hdata : s.files path = some data)
    (hs : s.handles .binary = some (.opened path data)) (hq : patternFor data p = some q) :
    Safe (device noFaults) (diskWatch I) (nextPattern path p) s fun x u =>
      0 ≤ x.1 ∧ x.2 = q ∧ u.toDisk = s.toDisk ∧
        ∃ pos, u.handles .binary = some ⟨path, data, pos, false⟩ := by
  unfold nextPattern
  rw [safe_bind, safe_fsStat hdata]
  refine ⟨hI, ?_⟩
  simp only [Int.lt_irrefl, if_false, true_and, List.length_eq_zero_iff]
  unfold patternFor at hq
  by_cases hempty : data = []
  · rw [if_pos hempty] at hq
    rw [if_pos hempty, safe_bind, safe_inside hq, safe_pure]
    exact ⟨le_rfl, rfl, rfl, 0, hs⟩
  · rw [if_neg hempty] at hq
    have hchunk : (OpenFile.opened path data).chunk TEST_FILE_SIZE = data.take TEST_FILE_SIZE := rfl
    have hpos : ¬ ((data.take TEST_FILE_SIZE).length : ℤ) < 0 := by omega
    rw [if_neg hempty, safe_bind, safe_fsRead hs]
    refine ⟨hI, ?_⟩
    simp only [hchunk, if_neg hpos]
    rw [safe_bind, safe_inside hq, safe_pure]
    exact ⟨Int.natCast_nonneg _, rfl, rfl, _, withHandle_handles _⟩

theorem binarySteps_spec {data p q : List UInt8} (hI : I s.toDisk) (hdata : s.files path = some data)
    (hs : s.handles .binary = some (.opened path data)) (hq : patternFor data p = some q) :
    Safe (device noFaults) (diskWatch I) (binarySteps path p) s fun x u =>
      0 ≤ x.1 ∧ ∃ image, image = q ++ data.drop q.length ∧
        Rewritten .binary path image s u := by
  unfold binarySteps
  rw [safe_bind]
  refine (nextPattern_spec hI hdata hs hq).imp ?_
  rintro ⟨rc, pattern⟩ t ⟨hrc, hpattern, hdisk, pos, ht⟩
  obtain rfl : pattern = q := hpattern
  have hIt : I t.toDisk := hdisk ▸ hI
  simp only [if_neg (Int.not_lt.mpr hrc), safe_bind]
  rw [safe_fsSeek ht]
  refine ⟨hIt, ?_⟩
  simp only [Int.lt_irrefl, if_false, safe_bind]
  rw [safe_fsWrite (withHandle_handles _)]
  refine ⟨hIt, ?_⟩
  rw [safe_pure]
  refine ⟨by omega, _, rfl, hdisk, pattern.length, ?_⟩
  rw [withHandle_handles]
  simp [OpenFile.write, OpenFile.seek, overwrite_zero]

/-- The count that `littlefs_text_file_write` takes from a file that holds `data`. -/
def countIn (data : List UInt8) (writeCount : ℤ) : ℤ :=
  if data = [] then 0 else sscanfCount (data.take 31) writeCount

theorem oldCount_spec {data : List UInt8} {writeCount : ℤ} (hI : I s.toDisk)
    (hdata : s.files path = some data) (hs : s.handles .text = some (.opened path data)) :
    Safe (device noFaults) (diskWatch I) (oldCount path writeCount) s fun x u =>
      x.1 = 0 ∧ x.2 = countIn data writeCount ∧ u.toDisk = s.toDisk ∧
        ∃ pos, u.handles .text = some ⟨path, data, pos, false⟩ := by
  unfold oldCount countIn
  rw [safe_bind, safe_fsStat hdata]
  refine ⟨hI, ?_⟩
  simp only [Int.lt_irrefl, if_false, true_and, List.length_eq_zero_iff]
  by_cases hempty : data = []
  · rw [if_pos hempty, safe_pure, if_pos hempty]
    exact ⟨rfl, rfl, rfl, 0, hs⟩
  · have hchunk : (OpenFile.opened path data).chunk 31 = data.take 31 := rfl
    have hpos : ((data.take 31).length : ℤ) > 0 := by
      have := List.length_pos_iff.mpr hempty
      rw [List.length_take]
      omega
    rw [if_neg hempty, if_neg hempty, safe_bind, safe_fsRead hs]
    refine ⟨hI, ?_⟩
    simp only [hchunk, if_pos hpos, safe_pure]
    exact ⟨trivial, trivial, rfl, _, withHandle_handles _⟩

theorem textSteps_spec {data : List UInt8} {writeCount : ℤ} (hI : I s.toDisk)
    (hdata : s.files path = some data) (hs : s.handles .text = some (.opened path data)) :
    Safe (device noFaults) (diskWatch I) (textSteps path writeCount) s fun x u =>
      0 ≤ x.1 ∧ ∃ image, (x.2 = toInt32 (countIn data writeCount + 1) ∧
          image = textContent x.2 (toInt32 u.uptime)) ∧
        Rewritten .text path image s u := by
  unfold textSteps
  rw [safe_bind]
  refine (oldCount_spec hI hdata hs).imp ?_
  rintro ⟨rc, count⟩ t ⟨hrc, hcount, hdisk, pos, ht⟩
  obtain rfl : rc = 0 := hrc
  obtain rfl : count = countIn data writeCount := hcount
  have hIt : I t.toDisk := hdisk ▸ hI
  simp only [Int.lt_irrefl, if_false]
  rw [safe_bind, safe_kUptimeGet]
  refine ⟨hIt, fun time => ?_⟩
  have ht : ({ t with uptime := time } : System).handles .text = _ := ht
  rw [snprintf_textContent (toInt32_isInt32 _) (toInt32_isInt32 _), safe_bind, safe_fsSeek ht]
  refine ⟨hIt, ?_⟩
  simp only [Int.lt_irrefl, if_false]
  rw [safe_bind, safe_fsWrite (withHandle_handles _)]
  refine ⟨hIt, ?_⟩
  simp only [if_neg (Int.not_lt.mpr (Int.natCast_nonneg _))]
  rw [safe_bind, safe_fsTruncate (withHandle_handles _)]
  refine ⟨hIt, ?_⟩
  rw [safe_pure]
  refine ⟨le_rfl, textContent _ (toInt32 time), ⟨rfl, rfl⟩, hdisk,
    0 + (textContent (toInt32 (countIn data writeCount + 1)) (toInt32 time)).length, ?_⟩
  rw [withHandle_handles]
  simp only [OpenFile.truncate, OpenFile.write, OpenFile.seek, overwrite_zero, resize_append]

/-! ## The whole functions -/

theorem littlefsIncreaseInfileValue_spec (h0 : I s.toDisk) (h1 : I (s.toDisk.create path)) :
    Safe (device noFaults) (diskWatch I) (littlefsIncreaseInfileValue path) s fun rc u =>
      rc = 0 ∧ u.toDisk = (s.toDisk.create path).commit path
        (((s.content path).headD 0 + 1) :: (s.content path).drop 1) := by
  unfold littlefsIncreaseInfileValue
  rw [safe_bind]
  have hfile := onFile_spec () bootCountSteps
    (fun _ _ image => image = ((s.content path).headD 0 + 1) :: (s.content path).drop 1) h0 h1
    fun t hdisk ht => bootCountSteps_spec (hdisk ▸ h1) ht
  refine hfile.imp ?_
  rintro ⟨rc, _⟩ u ⟨hrc, image, rfl, hu⟩
  rw [safe_pure]
  exact ⟨hrc, hu⟩

theorem littlefsBinaryFileAdj_spec {p : List UInt8} (hp : p.length = TEST_FILE_SIZE)
    (h0 : I s.toDisk) (h1 : I (s.toDisk.create path)) :
    Safe (device noFaults) (diskWatch I) (littlefsBinaryFileAdj path p) s fun x u =>
      x.1 = 0 ∧ ∃ q, (patternFor (s.content path) p = some q ∧ q.length = TEST_FILE_SIZE) ∧
        u.toDisk = (s.toDisk.create path).commit path (q ++ (s.content path).drop q.length) := by
  obtain ⟨q, hq, hlen⟩ := patternFor_inside (s.content path) hp
  have hfile := onFile_spec p (binarySteps path p)
    (fun _ _ image => image = q ++ (s.content path).drop q.length) h0 h1
    fun t hdisk ht => binarySteps_spec (hdisk ▸ h1)
      (show t.files path = some (s.content path) from hdisk ▸ Disk.create_self) ht hq
  refine hfile.imp ?_
  rintro x u ⟨hrc, image, rfl, hu⟩
  exact ⟨hrc, q, ⟨hq, hlen⟩, hu⟩

theorem littlefsTextFileWrite_spec {writeCount : ℤ} (h0 : I s.toDisk)
    (h1 : I (s.toDisk.create path)) :
    Safe (device noFaults) (diskWatch I) (littlefsTextFileWrite path writeCount) s fun x u =>
      x.1 = 0 ∧ x.2 = toInt32 (countIn (s.content path) writeCount + 1) ∧
        u.toDisk = (s.toDisk.create path).commit path (textContent x.2 (toInt32 u.uptime)) := by
  have hfile := onFile_spec writeCount (textSteps path writeCount)
    (fun count uptime image => count = toInt32 (countIn (s.content path) writeCount + 1) ∧
      image = textContent count (toInt32 uptime)) h0 h1
    fun t hdisk ht => textSteps_spec (hdisk ▸ h1)
      (show t.files path = some (s.content path) from hdisk ▸ Disk.create_self) ht
  refine hfile.imp ?_
  rintro x u ⟨hrc, image, ⟨hcount, rfl⟩, hu⟩
  exact ⟨hrc, hcount, hu⟩

end NrfProjects.Littlefs
