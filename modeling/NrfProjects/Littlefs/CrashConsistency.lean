import NrfProjects.Interaction.Boots
import NrfProjects.Littlefs.Updates

/-! # The files of the littlefs demo over any history of boots

Each file is absent, empty or whole after any boots, complete or cut, and holds the number of times
it has been written. -/

namespace NrfProjects.Littlefs
set_option autoImplicit false
open Interaction Encoding

def Blank (d : Disk) (path : String) : Prop := d.files path = none ∨ d.files path = some []

/-- The pattern after `k` changes. -/
def patternAfter : ℕ → Option (List UInt8)
  | 0 => initPattern (List.replicate TEST_FILE_SIZE 0) TEST_FILE_SIZE
  | k + 1 => (patternAfter k).bind fun p => incrPattern p TEST_FILE_SIZE 0x1

def CountFile (d : Disk) (path : String) : Prop :=
  Blank d path ∧ d.commits path = 0 ∨ d.files path = some [UInt8.ofNat (d.commits path)]

/-- The text file, as long as its count is an `int`. -/
def TextFile (d : Disk) (path : String) : Prop :=
  d.commits path < 2 ^ 31 → Blank d path ∧ d.commits path = 0 ∨
    ∃ time, d.files path = some (textContent (d.commits path) (toInt32 time))

def PatternFile (d : Disk) (path : String) : Prop :=
  Blank d path ∧ d.sinceAbsent path = 0 ∨ ∃ k p, d.sinceAbsent path = k + 1 ∧
    patternAfter k = some p ∧ p.length = TEST_FILE_SIZE ∧ d.files path = some p

structure Consistent (storage : Storage) (d : Disk) : Prop where
  boot : CountFile d (fname1 storage)
  text : TextFile d (fname2 storage)
  pattern : PatternFile d (fname3 storage)
  textOrder : d.commits (fname2 storage) ≤ d.commits (fname1 storage)
  patternOrder : d.commits (fname3 storage) ≤ d.commits (fname2 storage)

variable {d d' : Disk} {path : String}

/-! ## One file -/

/-- Nothing about the file at `path` differs. -/
structure SameAt (path : String) (d d' : Disk) : Prop where
  files : d'.files path = d.files path
  commits : d'.commits path = d.commits path
  sinceAbsent : d'.sinceAbsent path = d.sinceAbsent path

theorem SameAt.commit {q : String} (image : List UInt8) (h : path ≠ q) :
    SameAt path d (d.commit q image) :=
  ⟨Disk.commit_files h, Disk.commit_commits h, Disk.commit_sinceAbsent h⟩

theorem SameAt.unlink {q : String} (h : path ≠ q) : SameAt path d (d.unlink q) :=
  ⟨Disk.unlink_files h, rfl, Disk.unlink_sinceAbsent h⟩

theorem Blank.create {q : String} (h : Blank d path) : Blank (d.create q) path := by
  by_cases hq : path = q
  · right
    rw [hq, Disk.create_self, Disk.content, ← hq]
    rcases h with h | h
    · rw [h]
      rfl
    · rw [h]
      rfl
  · have hfiles : (d.create q).files path = d.files path := Function.update_of_ne hq _ _
    unfold Blank
    rw [hfiles]
    exact h

theorem Blank.content (h : Blank d path) : d.content path = [] := by
  rcases h with h | h
  · rw [Disk.content, h]
    rfl
  · rw [Disk.content, h]
    rfl

theorem content_of_some {x : List UInt8} (h : d.files path = some x) : d.content path = x := by
  rw [Disk.content, h, Option.getD_some]

theorem CountFile.create {q : String} (h : CountFile d path) : CountFile (d.create q) path := by
  rcases h with ⟨hblank, hzero⟩ | hfull
  · exact .inl ⟨hblank.create, hzero⟩
  · exact .inr (Disk.create_some hfull)

theorem TextFile.create {q : String} (h : TextFile d path) : TextFile (d.create q) path := by
  intro hlt
  rcases h hlt with ⟨hblank, hzero⟩ | ⟨time, hfull⟩
  · exact .inl ⟨hblank.create, hzero⟩
  · exact .inr ⟨time, Disk.create_some hfull⟩

theorem PatternFile.create {q : String} (h : PatternFile d path) :
    PatternFile (d.create q) path := by
  rcases h with ⟨hblank, hzero⟩ | ⟨k, p, hk, hp, hlen, hfull⟩
  · exact .inl ⟨hblank.create, hzero⟩
  · exact .inr ⟨k, p, hk, hp, hlen, Disk.create_some hfull⟩

theorem CountFile.congr (h : CountFile d path) (hs : SameAt path d d') : CountFile d' path := by
  unfold CountFile Blank at *
  rw [hs.files, hs.commits]
  exact h

theorem TextFile.congr (h : TextFile d path) (hs : SameAt path d d') : TextFile d' path := by
  unfold TextFile Blank at *
  rw [hs.files, hs.commits]
  exact h

theorem PatternFile.congr (h : PatternFile d path) (hs : SameAt path d d') :
    PatternFile d' path := by
  unfold PatternFile Blank at *
  rw [hs.files, hs.sinceAbsent]
  exact h

/-! ## The new images -/

theorem CountFile.commit (h : CountFile d path) :
    CountFile ((d.create path).commit path
      (((d.content path).headD 0 + 1) :: (d.content path).drop 1)) path := by
  right
  rw [Disk.commit_files_self, Disk.commit_commits_self, Disk.create_commits]
  rcases h with ⟨hblank, hzero⟩ | hfull
  · rw [hblank.content, hzero]
    rfl
  · rw [content_of_some hfull]
    show some [UInt8.ofNat (d.commits path) + 1] = some [UInt8.ofNat (d.commits path + 1)]
    rw [UInt8.ofNat_add]
    rfl

/-- The text file holds as many as were written, and so does the count taken from it. -/
theorem TextFile.countIn (h : TextFile d path) (hlt : d.commits path < 2 ^ 31) :
    countIn (d.content path) 0 = d.commits path := by
  unfold Littlefs.countIn
  rcases h hlt with ⟨hblank, hzero⟩ | ⟨time, hfull⟩
  · rw [hblank.content, if_pos rfl, hzero]
    rfl
  · have hint : IsInt32 (d.commits path) := by
      unfold IsInt32
      omega
    obtain ⟨rest, hrest⟩ := textContent_eq (d.commits path) (toInt32 time)
    rw [content_of_some hfull, if_neg (textContent_ne_nil _ _), hrest,
      sscanfCount_countLine hint]

theorem TextFile.commit (h : TextFile d path) (time : ℤ) :
    TextFile ((d.create path).commit path
      (textContent (toInt32 (Littlefs.countIn (d.content path) 0 + 1)) (toInt32 time))) path := by
  intro hlt
  rw [Disk.commit_commits_self, Disk.create_commits] at hlt
  have hint : IsInt32 (d.commits path + 1) := by
    unfold IsInt32
    omega
  right
  refine ⟨time, ?_⟩
  rw [Disk.commit_files_self, Disk.commit_commits_self, Disk.create_commits,
    h.countIn (by omega), toInt32_of_isInt32 hint]
  rfl

theorem PatternFile.commit (h : PatternFile d path) {q : List UInt8}
    (hq : patternFor (d.content path) (List.replicate TEST_FILE_SIZE 0) = some q)
    (hlen : q.length = TEST_FILE_SIZE) :
    PatternFile ((d.create path).commit path (q ++ (d.content path).drop q.length)) path := by
  right
  unfold patternFor at hq
  rw [Disk.commit_files_self, Disk.commit_sinceAbsent_self, Disk.create_sinceAbsent]
  rcases h with ⟨hblank, hzero⟩ | ⟨k, p, hk, hp, hplen, hfull⟩
  · rw [hblank.content, if_pos rfl] at hq
    refine ⟨0, q, by rw [hzero], hq, hlen, ?_⟩
    rw [hblank.content, List.drop_nil, List.append_nil]
  · have hne : p ≠ [] := by
      intro hnil
      rw [hnil] at hplen
      exact absurd hplen (by decide)
    have htake : p.take TEST_FILE_SIZE = p := List.take_of_length_le (Nat.le_of_eq hplen)
    rw [content_of_some hfull, if_neg hne, htake, hplen, List.drop_of_length_le (by simp),
      List.append_nil] at hq
    refine ⟨k + 1, q, by rw [hk], ?_, hlen, ?_⟩
    · rw [patternAfter, hp, Option.bind_some, hq]
    · rw [content_of_some hfull, hlen, List.drop_of_length_le (Nat.le_of_eq hplen),
        List.append_nil]

theorem PatternFile.unlink : PatternFile (d.unlink path) path :=
  .inl ⟨.inl Disk.unlink_files_self, Disk.unlink_sinceAbsent_self⟩

/-! ## The whole disk -/

variable {storage : Storage}

theorem fname1_ne_fname2 (storage : Storage) : fname1 storage ≠ fname2 storage := by
  cases storage <;> decide

theorem fname1_ne_fname3 (storage : Storage) : fname1 storage ≠ fname3 storage := by
  cases storage <;> decide

theorem fname2_ne_fname3 (storage : Storage) : fname2 storage ≠ fname3 storage := by
  cases storage <;> decide

namespace Consistent

theorem create (h : Consistent storage d) (path : String) : Consistent storage (d.create path) :=
  ⟨h.boot.create, h.text.create, h.pattern.create, h.textOrder, h.patternOrder⟩

/-- Once the boot is counted, the text file is one update behind. -/
theorem count (h : Consistent storage d) {image : List UInt8}
    (himage : image = ((d.content (fname1 storage)).headD 0 + 1) ::
      (d.content (fname1 storage)).drop 1) :
    Consistent storage ((d.create (fname1 storage)).commit (fname1 storage) image) ∧
      ((d.create (fname1 storage)).commit (fname1 storage) image).commits (fname2 storage) <
        ((d.create (fname1 storage)).commit (fname1 storage) image).commits (fname1 storage) := by
  have h12 := (fname1_ne_fname2 storage).symm
  have h13 := (fname1_ne_fname3 storage).symm
  have htext := h.textOrder
  have hpattern := h.patternOrder
  have hcreate := h.create (fname1 storage)
  refine ⟨⟨himage ▸ h.boot.commit, hcreate.text.congr (.commit image h12),
    hcreate.pattern.congr (.commit image h13), ?_, ?_⟩, ?_⟩
  · rw [Disk.commit_commits h12, Disk.commit_commits_self, Disk.create_commits]
    omega
  · rw [Disk.commit_commits h13, Disk.commit_commits h12]
    exact hpattern
  · rw [Disk.commit_commits h12, Disk.commit_commits_self, Disk.create_commits]
    omega

theorem rewrite (h : Consistent storage d)
    (hlt : d.commits (fname2 storage) < d.commits (fname1 storage)) {image : List UInt8} {time : ℤ}
    (himage : image = textContent (toInt32 (countIn (d.content (fname2 storage)) 0 + 1))
      (toInt32 time)) :
    Consistent storage ((d.create (fname2 storage)).commit (fname2 storage) image) ∧
      ((d.create (fname2 storage)).commit (fname2 storage) image).commits (fname3 storage) <
        ((d.create (fname2 storage)).commit (fname2 storage) image).commits (fname2 storage) := by
  have h21 := fname1_ne_fname2 storage
  have h23 := (fname2_ne_fname3 storage).symm
  have hpattern := h.patternOrder
  have hcreate := h.create (fname2 storage)
  refine ⟨⟨hcreate.boot.congr (.commit image h21), himage ▸ h.text.commit time,
    hcreate.pattern.congr (.commit image h23), ?_, ?_⟩, ?_⟩
  · rw [Disk.commit_commits h21, Disk.commit_commits_self, Disk.create_commits]
    omega
  · rw [Disk.commit_commits h23, Disk.commit_commits_self, Disk.create_commits]
    omega
  · rw [Disk.commit_commits h23, Disk.commit_commits_self, Disk.create_commits]
    omega

theorem adjust (h : Consistent storage d)
    (hlt : d.commits (fname3 storage) < d.commits (fname2 storage)) {q : List UInt8}
    (hq : patternFor (d.content (fname3 storage)) (List.replicate TEST_FILE_SIZE 0) = some q)
    (hlen : q.length = TEST_FILE_SIZE) :
    Consistent storage ((d.create (fname3 storage)).commit (fname3 storage)
      (q ++ (d.content (fname3 storage)).drop q.length)) := by
  have h31 := fname1_ne_fname3 storage
  have h32 := fname2_ne_fname3 storage
  have hcreate := h.create (fname3 storage)
  refine ⟨hcreate.boot.congr (.commit _ h31), hcreate.text.congr (.commit _ h32),
    h.pattern.commit hq hlen, ?_, ?_⟩
  · rw [Disk.commit_commits h31, Disk.commit_commits h32]
    exact h.textOrder
  · rw [Disk.commit_commits h32, Disk.commit_commits_self, Disk.create_commits]
    omega

theorem remove (h : Consistent storage d) : Consistent storage (d.unlink (fname3 storage)) :=
  ⟨h.boot.congr (.unlink (fname1_ne_fname3 storage)), h.text.congr (.unlink (fname2_ne_fname3 storage)),
    .unlink, h.textOrder, h.patternOrder⟩

end Consistent

/-! ## One boot -/

section
variable {I : Disk → Prop} {s : System}

theorem readEntries_spec (hI : I s.toDisk) :
    Safe (device noFaults) (diskWatch I) readEntries s fun res u => res = 0 ∧ u = s := by
  refine Safe.repeatM_quiet (fun _ u => u = s) rfl (fun _ _ hu => hu ▸ hI) ?_
  rintro _ u rfl
  rw [safe_bind, safe_lift]
  refine ⟨hI, ?_⟩
  rintro ⟨res, name⟩ v ha
  rw [answer_noFaults] at ha
  obtain ⟨hres, rfl⟩ := ha
  by_cases hend : res ≠ 0 ∨ name = ""
  · simp only [if_pos hend, safe_pure]
    exact ⟨hres, trivial⟩
  · simp only [if_neg hend, safe_pure]
    exact trivial

theorem lsdir_spec (path : String) (hI : I s.toDisk) :
    Safe (device noFaults) (diskWatch I) (lsdir path) s fun rc u => rc = 0 ∧ u = s := by
  unfold lsdir
  rw [safe_bind, safe_done (r := 0) (t := s) fun _ _ => Iff.rfl]
  refine ⟨hI, ?_⟩
  simp only [ne_eq, not_true_eq_false, if_false, safe_bind]
  refine (readEntries_spec hI).imp ?_
  rintro res u ⟨rfl, rfl⟩
  rw [safe_done (r := 0) (t := u) fun _ _ => Iff.rfl, safe_pure]
  exact ⟨hI, rfl, rfl⟩

theorem rmfile_spec {path : String} {data : List UInt8} (hI : I s.toDisk)
    (hs : s.files path = some data) :
    Safe (device noFaults) (diskWatch I) (rmfile path) s fun rc u =>
      rc = 0 ∧ u.toDisk = s.toDisk.unlink path := by
  unfold rmfile
  rw [safe_bind, safe_done (r := 0) (t := { s with toDisk := s.toDisk.unlink path })
    fun _ _ => by simp only [Done, hs]]
  refine ⟨hI, ?_⟩
  simp only [ne_eq, not_true_eq_false, if_false, safe_pure]
  exact ⟨trivial, trivial⟩

theorem littlefsMount_spec (storage : Storage) (hI : I s.toDisk) :
    Safe (device noFaults) (diskWatch I) (littlefsMount false storage) s
      fun rc u => rc = 0 ∧ u = s := by
  have herase : Safe (device noFaults) (diskWatch I) (littlefsFlashErase false) s
      fun rc u => rc = 0 ∧ u = s := by
    unfold littlefsFlashErase
    rw [safe_bind, safe_done (r := 0) (t := s) fun _ _ => Iff.rfl]
    refine ⟨hI, ?_⟩
    simp only [optionalWipe, Int.lt_irrefl, Bool.false_eq_true, if_false, safe_bind, safe_pure,
      safe_lift]
    refine ⟨hI, fun _ t ha => ?_⟩
    rw [answer_noFaults] at ha
    exact ⟨trivial, ha⟩
  have hmount : Safe (device noFaults) (diskWatch I) (liftM Call.fsMount) s
      fun rc u => rc = 0 ∧ u = s := by
    rw [safe_done (r := 0) (t := s) fun _ _ => Iff.rfl]
    exact ⟨hI, rfl, rfl⟩
  cases storage with
  | flash =>
    unfold littlefsMount
    rw [safe_bind]
    refine herase.imp ?_
    rintro rc u ⟨rfl, rfl⟩
    simp only [Int.lt_irrefl, if_false, safe_bind]
    refine hmount.imp ?_
    rintro rc v ⟨rfl, rfl⟩
    simp
  | fstab =>
    unfold littlefsMount
    rw [safe_bind]
    refine herase.imp ?_
    rintro rc u ⟨rfl, rfl⟩
    simp
  | sd => exact hmount
  | mmc => exact hmount

theorem demo_spec (h : Consistent storage s.toDisk) :
    Safe (device noFaults) (diskWatch (Consistent storage)) (demo storage) s fun _ u =>
      Consistent storage u.toDisk := by
  unfold demo
  rw [safe_bind, safe_done (r := 0) (t := s) fun _ _ => Iff.rfl]
  refine ⟨h, ?_⟩
  simp only [Int.lt_irrefl, if_false, safe_bind]
  refine (lsdir_spec _ h).imp ?_
  rintro _ t ⟨rfl, rfl⟩
  simp only [Int.lt_irrefl, if_false, safe_bind]
  refine (littlefsIncreaseInfileValue_spec h (h.create _)).imp ?_
  rintro _ t₁ ⟨rfl, hdisk₁⟩
  obtain ⟨h₁, hlt₁⟩ := h.count rfl
  rw [← hdisk₁] at h₁ hlt₁
  simp only [ne_eq, not_true_eq_false, if_false, safe_bind]
  refine (littlefsTextFileWrite_spec h₁ (h₁.create _)).imp ?_
  rintro ⟨rc, count⟩ t₂ ⟨hrc, hcount, hdisk₂⟩
  obtain rfl : rc = 0 := hrc
  obtain rfl : count = _ := hcount
  obtain ⟨h₂, hlt₂⟩ := h₁.rewrite hlt₁ rfl
  rw [← hdisk₂] at h₂ hlt₂
  simp only [not_true_eq_false, if_false, safe_bind]
  refine (littlefsBinaryFileAdj_spec List.length_replicate h₂ (h₂.create _)).imp ?_
  rintro ⟨rc, pattern⟩ t₃ ⟨hrc, q, ⟨hq, hlen⟩, hdisk₃⟩
  obtain rfl : rc = 0 := hrc
  have h₃ := h₂.adjust hlt₂ hq hlen
  rw [← hdisk₃] at h₃
  have hfile : ∃ data, t₃.files (fname3 storage) = some data := by
    rw [hdisk₃]
    exact ⟨_, Disk.commit_files_self⟩
  obtain ⟨data, hdata⟩ := hfile
  simp only [not_true_eq_false, if_false, safe_bind]
  refine (rmfile_spec h₃ hdata).imp ?_
  rintro _ t₄ ⟨rfl, hdisk₄⟩
  have h₄ := h₃.remove
  rw [← hdisk₄] at h₄
  simp only [not_true_eq_false, if_false, safe_bind]
  refine (lsdir_spec _ h₄).imp ?_
  rintro _ t₅ ⟨-, rfl⟩
  rw [safe_pure]
  exact h₄

theorem main_spec (h : Consistent storage s.toDisk) :
    Safe (device noFaults) (diskWatch (Consistent storage)) (main storage) s fun _ u =>
      Consistent storage u.toDisk := by
  unfold main mainWith
  rw [safe_bind]
  refine (littlefsMount_spec storage h).imp ?_
  rintro _ t ⟨rfl, rfl⟩
  simp only [Int.lt_irrefl, if_false, safe_bind]
  refine (demo_spec h).imp fun _ u hu => ?_
  rw [safe_done (r := 0) (t := u) fun _ _ => Iff.rfl, safe_pure]
  exact ⟨hu, hu⟩

end

/-! ## Every history of boots -/

/-- A freshly formatted file system. -/
def formatted : System := ⟨.formatted, fun _ => none, 0⟩

theorem formatted_consistent (storage : Storage) : Consistent storage formatted.toDisk where
  boot := .inl ⟨.inl rfl, rfl⟩
  text _ := .inl ⟨.inl rfl, rfl⟩
  pattern := .inl ⟨.inl rfl, rfl⟩
  textOrder := le_rfl
  patternOrder := le_rfl

/-- **Crash consistency.** In every state that any number of boots passes through, each run to its
end or cut between two calls, the disk is consistent. -/
theorem crash_consistent (storage : Storage) {t : System}
    (h : Visited (device noFaults) System.powerUp (main storage) formatted t) :
    Consistent storage t.toDisk := by
  refine h.invariant (I := fun s => Consistent storage s.toDisk) (formatted_consistent storage)
    fun s hs => ?_
  have hmain : Consistent storage s.powerUp.toDisk := hs
  refine (main_spec hmain).mono (fun _ ht => ht) (fun c t ht => ?_) fun _ _ ht => ht
  cases c with
  | memFault => exact ht.elim
  | _ => exact ht

/-- The first boot, up to where the boot is counted. -/
theorem crash_consistent_first : ∃ t : System,
    Visited (device noFaults) System.powerUp (main .flash) formatted t ∧
      t.files (fname1 .flash) = some [1] ∧ Consistent .flash t.toDisk := by
  have hsteps := replay_steps reply_follows 13 (main .flash, formatted.powerUp)
  have hvisited : Visited (device noFaults) System.powerUp (main .flash) formatted
      (replay reply 13 (main .flash, formatted.powerUp)).2 := ⟨[], formatted, _, .start _, hsteps⟩
  exact ⟨_, hvisited, by rfl, crash_consistent .flash hvisited⟩

end NrfProjects.Littlefs
