import NrfProjects.Littlefs.FailedUpdates

/-! # Short writes

`fs_write` may take a part of an image, when no space is left. No function compares the count with
the length it asked for, so a zero answer says that the image is in the file only where the bytes
that were not taken are there already. -/

namespace NrfProjects.Littlefs
set_option autoImplicit false
open Interaction Encoding

variable {image data x : List UInt8} {n : ℕ}

/-! ## Images and files -/

theorem prefix_overwrite_iff (hn : n ≤ image.length) :
    image <+: overwrite data 0 (image.take n) ↔ image.drop n <+: data.drop n := by
  have hlen : (image.take n).length = n := List.length_take_of_le hn
  have hsplit : image <+: image.take n ++ data.drop n ↔
      image.take n ++ image.drop n <+: image.take n ++ data.drop n := by
    rw [List.take_append_drop]
  rw [overwrite_zero, hlen, hsplit, List.prefix_append_right_inj]

theorem resize_eq_iff (hzero : ∀ b ∈ image, b ≠ 0) :
    resize x image.length = image ↔ image <+: x := by
  constructor
  · intro h
    by_cases hshort : image.length ≤ x.length
    · have hnone : image.length - x.length = 0 := by omega
      rw [resize, hnone, List.replicate_zero, List.append_nil] at h
      rw [← h]
      exact List.take_prefix _ _
    · have hmem : (0 : UInt8) ∈ resize x image.length := by
        apply List.mem_append_right
        rw [List.mem_replicate]
        exact ⟨by omega, rfl⟩
      rw [h] at hmem
      exact absurd rfl (hzero 0 hmem)
  · intro h
    obtain ⟨rest, rfl⟩ := h
    exact resize_append image rest

theorem ne_zero_of_all (h : x.all (· ≠ 0) = true) : ∀ b ∈ x, b ≠ 0 :=
  fun b hb => of_decide_eq_true (List.all_eq_true.mp h b hb)

theorem textContent_ne_zero (writeCount time : ℤ) : ∀ b ∈ textContent writeCount time, b ≠ 0 := by
  have hformat : ∀ b ∈ countFormat, b ≠ 0 := ne_zero_of_all rfl
  have hafter : ∀ b ∈ afterCount, b ≠ 0 := ne_zero_of_all rfl
  have hms : ∀ b ∈ ascii " ms\n", b ≠ 0 := ne_zero_of_all rfl
  intro b hb
  simp only [textContent, List.mem_append] at hb
  rcases hb with hb | hb | hb | hb | hb
  · exact hformat b hb
  · exact intText_ne_zero hb
  · exact hafter b hb
  · exact intText_ne_zero hb
  · exact hms b hb

/-- Each update adds one to the last byte of a pattern. -/
theorem patternFor_last {p q : List UInt8} (hp : p.length = TEST_FILE_SIZE)
    (hdata : TEST_FILE_SIZE ≤ data.length) (hq : patternFor data p = some q) :
    ∃ b, data[TEST_FILE_SIZE - 1]? = some b ∧ q[TEST_FILE_SIZE - 1]? = some (b + 1) := by
  have hsize : TEST_FILE_SIZE = 547 := rfl
  have hlt : TEST_FILE_SIZE - 1 < data.length := by omega
  have hne : data ≠ [] := List.ne_nil_of_length_pos (by omega)
  have hlen : (data.take TEST_FILE_SIZE).length = TEST_FILE_SIZE := List.length_take_of_le hdata
  have hdrop : p.drop TEST_FILE_SIZE = [] := List.drop_eq_nil_of_le (by omega)
  rw [patternFor, if_neg hne, hlen, hdrop, List.append_nil] at hq
  obtain ⟨r, hr, hholds⟩ := incrPattern_holds 0x1 (by decide) (holds_getD hlen)
  obtain rfl : r = q := Option.some.inj (hr.symm.trans hq)
  refine ⟨data[TEST_FILE_SIZE - 1], List.getElem?_eq_getElem hlt, ?_⟩
  rw [hholds.byte _ (by decide), if_pos (.inl rfl), List.getD_eq_getElem?_getD,
    List.getElem?_take_of_lt (by decide), List.getElem?_eq_getElem hlt, Option.getD_some]

theorem add_one_ne (b : UInt8) : b + 1 ≠ b := by
  intro h
  have hnat := congrArg UInt8.toNat h
  have hone : (1 : UInt8).toNat = 1 := rfl
  have hlt := b.toNat_lt
  rw [UInt8.toNat_add, hone] at hnat
  omega

/-- An incremented byte is not in the file already. -/
theorem increment_absent : ¬ [data.headD 0 + 1] <+: data := by
  intro h
  obtain ⟨rest, h⟩ := h
  apply add_one_ne (data.headD 0)
  conv_rhs => rw [← h]
  rfl

/-- Nor is the last byte of a new pattern. -/
theorem pattern_absent {p q : List UInt8} (hp : p.length = TEST_FILE_SIZE)
    (hq : patternFor data p = some q) (hlen : q.length = TEST_FILE_SIZE) (hn : n < TEST_FILE_SIZE) :
    ¬ q.drop n <+: data.drop n := by
  intro h
  obtain ⟨rest, h⟩ := h
  have hdata : TEST_FILE_SIZE ≤ data.length := by
    have := congrArg List.length h
    simp only [List.length_append, List.length_drop] at this
    omega
  obtain ⟨b, hold, hnew⟩ := patternFor_last hp hdata hq
  have hsame : (q.drop n)[TEST_FILE_SIZE - 1 - n]? = (data.drop n)[TEST_FILE_SIZE - 1 - n]? := by
    rw [← h, List.getElem?_append_left]
    rw [List.length_drop]
    omega
  have hindex : n + (TEST_FILE_SIZE - 1 - n) = TEST_FILE_SIZE - 1 := by omega
  rw [List.getElem?_drop, List.getElem?_drop, hindex, hold, hnew] at hsame
  exact add_one_ne b (Option.some.inj hsame)

namespace Updater

/-- The image that a function computes at an uptime for a file that holds `data`. -/
def newImage (time : ℤ) (data : List UInt8) : Updater → List UInt8
  | .increase => [data.headD 0 + 1]
  | .text writeCount => textContent (toInt32 (countIn data writeCount + 1)) (toInt32 time)
  | .binary p => (patternFor data p.1).getD []

/-- The text file is the image, the others start with it. -/
def Complete (image file : List UInt8) : Updater → Prop
  | .text _ => file = image
  | .increase => image <+: file
  | .binary _ => image <+: file

variable {f : Updater} {w : WriteBehaviour} {time : ℤ}

theorem update_image : (f.update ⟨none, w, time⟩ data).image = f.newImage time data := by
  cases f <;> simp [update, newImage, bootCountUpdate, textUpdate, binaryUpdate, textImage, countTaken]

theorem complete_iff (hn : n ≤ (f.newImage time data).length) :
    f.Complete (f.newImage time data) ((f.update ⟨none, w, time⟩ data).final n) ↔
      (f.newImage time data).drop n <+: data.drop n := by
  cases f with
  | increase => exact prefix_overwrite_iff hn
  | binary p => exact prefix_overwrite_iff hn
  | text writeCount =>
    rw [← prefix_overwrite_iff hn, ← update_image (w := w)]
    exact resize_eq_iff (textContent_ne_zero _ _)

end Updater

/-! ## Short writes -/

section
variable {path : String} {s : System} {plan : Plan} {v : Update} {rc : ℤ} {u : Trial}

/-- With no early failure, the write decides. -/
theorem Outcome.of_takes (h : Outcome plan path v s rc u) (hearly : plan.early = none)
    (htakes : plan.write.takes v.image.length = some n) : rc = 0 ∧ u.content path = v.final n := by
  cases h with
  | stopped _ hnot _ _ => exact absurd hearly hnot
  | unwritten _ hnone _ => rw [hnone] at htakes; cases htakes
  | @written m _ hm _ hdisk =>
    obtain rfl : m = n := Option.some.inj (hm.symm.trans htakes)
    refine ⟨rfl, ?_⟩
    rw [hdisk, Disk.content, Disk.commit_files_self, Option.getD_some]

theorem Outcome.of_zero (h : Outcome plan path v s rc u) (hrc : rc = 0) :
    ∃ n, plan.write.takes v.image.length = some n := by
  cases h with
  | stopped hneg _ _ _ => omega
  | unwritten hneg _ _ => omega
  | written htakes _ _ => exact ⟨_, htakes⟩

end

/-- A zero answer means that the file has the whole image if and only if each part that the write
may take is followed by the rest of the image. -/
theorem returns_complete_iff (f : Updater) (w : WriteBehaviour) (time : ℤ) (path : String)
    (s : System) :
    Returns (trial ⟨none, w, time⟩) .none
      (fun rc u => rc = 0 → f.Complete (f.newImage time (s.content path)) (u.content path))
      (f.run path) (.start s) ↔
    ∀ n, w.takes (f.newImage time (s.content path)).length = some n →
      (f.newImage time (s.content path)).drop n <+: (s.content path).drop n := by
  constructor
  · intro h n htakes
    obtain ⟨rc, u, hout, hcomplete⟩ := (f.outcome ⟨none, w, time⟩ path s).meet h
    obtain ⟨hrc, hu⟩ := hout.of_takes rfl (Updater.update_image ▸ htakes)
    rw [← Updater.complete_iff (w := w) (w.le _ _ htakes), ← hu]
    exact hcomplete hrc
  · intro h
    refine (f.outcome ⟨none, w, time⟩ path s).imp fun rc u hout hrc => ?_
    obtain ⟨n, htakes⟩ := hout.of_zero hrc
    rw [(hout.of_takes rfl htakes).2]
    rw [Updater.update_image] at htakes
    exact (Updater.complete_iff (w.le _ _ htakes)).mpr (h n htakes)

/-- A write that does not fail takes everything, or, of a text, all that is not in the file
already. -/
def Updater.LeavesNothingOut (w : WriteBehaviour) (time : ℤ) (data : List UInt8) : Updater → Prop
  | .increase => w.takes 1 ≠ some 0
  | .binary _ => ∀ n < TEST_FILE_SIZE, w.takes TEST_FILE_SIZE ≠ some n
  | .text writeCount =>
    ∀ n, w.takes (textContent (toInt32 (countIn data writeCount + 1)) (toInt32 time)).length =
        some n →
      (textContent (toInt32 (countIn data writeCount + 1)) (toInt32 time)).drop n <+: data.drop n

theorem leavesNothingOut_iff {f : Updater} {w : WriteBehaviour} {time : ℤ} :
    f.LeavesNothingOut w time data ↔ ∀ n, w.takes (f.newImage time data).length = some n →
      (f.newImage time data).drop n <+: data.drop n := by
  have hall : ∀ image : List UInt8, image.drop image.length <+: data.drop image.length := by
    intro image
    rw [List.drop_length]
    exact List.nil_prefix
  cases f with
  | text writeCount => rfl
  | increase =>
    constructor
    · intro h n htakes
      have hle : n ≤ 1 := w.le _ _ htakes
      have hne : n ≠ 0 := fun hzero => h (hzero ▸ htakes)
      obtain rfl : n = 1 := by omega
      exact hall [data.headD 0 + 1]
    · intro h htakes
      exact increment_absent (h 0 htakes)
  | binary p =>
    obtain ⟨q, hq, hlen⟩ := patternFor_inside data p.2
    have himage : (Updater.binary p).newImage time data = q := by rw [Updater.newImage, hq]; rfl
    rw [himage, hlen]
    constructor
    · intro h n htakes
      have hle : n ≤ TEST_FILE_SIZE := w.le _ _ htakes
      have hge : ¬ n < TEST_FILE_SIZE := fun hlt => h n hlt htakes
      obtain rfl : n = q.length := by omega
      exact hall q
    · intro h n hlt htakes
      exact pattern_absent p.2 hq hlen hlt (h n htakes)

/-- **Short writes.** A zero answer means that the file has the whole image if and only if the
write leaves nothing out. -/
theorem zero_complete_iff (f : Updater) (w : WriteBehaviour) (time : ℤ) (path : String)
    (s : System) :
    Returns (trial ⟨none, w, time⟩) .none
      (fun rc u => rc = 0 → f.Complete (f.newImage time (s.content path)) (u.content path))
      (f.run path) (.start s) ↔ f.LeavesNothingOut w time (s.content path) := by
  rw [returns_complete_iff, leavesNothingOut_iff]

/-- No space is left. -/
def WriteBehaviour.nothing : WriteBehaviour := ⟨fun _ => some 0, by simp⟩

/-- The first boot count does not get written, and the answer is zero. -/
theorem count_unwritten :
    ¬ Returns (trial ⟨none, .nothing, 0⟩) .none
      (fun rc u => rc = 0 → Updater.increase.Complete [1] (u.content "/lfs/boot_count"))
      (Updater.increase.run "/lfs/boot_count") (.start ⟨.formatted, fun _ => none, 0⟩) := by
  intro h
  have hall := (returns_complete_iff .increase .nothing 0 "/lfs/boot_count"
    ⟨.formatted, fun _ => none, 0⟩).mp h 0 rfl
  exact increment_absent hall

end NrfProjects.Littlefs
