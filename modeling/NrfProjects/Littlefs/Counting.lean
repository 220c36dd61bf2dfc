import NrfProjects.Interaction.Errno
import NrfProjects.Interaction.Returns
import NrfProjects.Littlefs.Updates

/-! # The count of the text file

Without a failing call, each call of `littlefs_text_file_write` takes the count in the file up by
one, whatever the static variable holds and whatever follows the first line of the old file. -/

namespace NrfProjects.Littlefs
set_option autoImplicit false
open Interaction Encoding

variable {I : Disk → Prop} {s : System} {path : String} {file : FileVar} {n writeCount : ℤ}

/-! ## The function returns -/

theorem onHandle_exists {ρ : Type} {failed : ρ → System → Prop}
    {P : ρ → System → OpenFile → Prop} (hfailed : ∃ r t, failed r t)
    (hP : ∀ h, ∃ r t, P r t h) : ∃ r t, OnHandle s file (failed r t) (P r t) := by
  unfold OnHandle
  cases s.handles file with
  | none => exact hfailed
  | some h => exact hP h

/-- Every call is answered, except an access outside an array. -/
theorem answer_exists {ρ : Type} (c : Call ρ) (s : System) (hc : (diskWatch I).atCall c s) :
    ∃ r t, (device noFaults).answer c s r t := by
  suffices h : ∃ r t, Done noFaults c s r t by
    obtain ⟨r, t, h⟩ := h
    exact ⟨r, t, .inl h⟩
  have hneg := Errno.ioError.neg
  cases c with
  | memFault => exact hc.elim
  | fsStat path =>
    simp only [Done]
    cases s.files path with
    | none => exact ⟨(_, ⟨.file, 0⟩), s, hneg, rfl⟩
    | some data => exact ⟨_, s, rfl, rfl⟩
  | fsUnlink path =>
    simp only [Done]
    cases s.files path with
    | none => exact ⟨_, s, hneg, rfl⟩
    | some data => exact ⟨_, _, rfl, rfl⟩
  | fsRead file len => exact onHandle_exists ⟨(_, []), s, hneg, rfl⟩ fun h => ⟨_, _, rfl, rfl⟩
  | fsSeek | fsTruncate | fsClose =>
    exact onHandle_exists ⟨_, s, hneg, rfl⟩ fun h => ⟨_, _, rfl, rfl⟩
  | fsWrite file data =>
    exact onHandle_exists ⟨_, s, hneg, rfl⟩ fun h => ⟨_, _, data.length, rfl, rfl, rfl⟩
  | fsReaddir => exact ⟨(0, ""), s, rfl, rfl⟩
  | flashAreaClose => exact ⟨(), s, rfl⟩
  | kUptimeGet => exact ⟨0, _, rfl⟩
  | fsOpen | flashAreaFlatten => exact ⟨0, _, rfl, rfl⟩
  | _ => exact ⟨0, s, rfl, rfl⟩

theorem onFile_loopFree {σ : Type} (static : σ) {steps : Prog Call (ℤ × σ)}
    (h : steps.LoopFree) : (onFile file path static steps).LoopFree := by
  unfold onFile
  apply Prog.LoopFree.bind (loopFree_lift _)
  intro rc
  apply Prog.LoopFree.ite (loopFree_pure _)
  apply Prog.LoopFree.bind h
  intro x
  apply Prog.LoopFree.bind (loopFree_lift _)
  intro ret
  exact .ite (loopFree_pure _) (loopFree_pure _)

theorem oldCount_loopFree : (oldCount path writeCount).LoopFree := by
  unfold oldCount
  apply Prog.LoopFree.bind (loopFree_lift _)
  intro r
  apply Prog.LoopFree.ite (loopFree_pure _)
  apply Prog.LoopFree.ite (loopFree_pure _)
  apply Prog.LoopFree.bind (loopFree_lift _)
  intro r
  exact .ite (loopFree_pure _) (loopFree_pure _)

theorem textSteps_loopFree : (textSteps path writeCount).LoopFree := by
  unfold textSteps
  apply Prog.LoopFree.bind oldCount_loopFree
  intro x
  apply Prog.LoopFree.ite (loopFree_pure _)
  apply Prog.LoopFree.bind (loopFree_lift _)
  intro time
  apply Prog.LoopFree.bind (loopFree_lift _)
  intro rc
  apply Prog.LoopFree.ite (loopFree_pure _)
  apply Prog.LoopFree.bind (loopFree_lift _)
  intro rc
  apply Prog.LoopFree.ite (loopFree_pure _)
  apply Prog.LoopFree.bind (loopFree_lift _)
  intro rc
  exact loopFree_pure _

theorem littlefsTextFileWrite_returns :
    Returns (device noFaults) (diskWatch fun _ => True) (fun x u =>
        x = (0, toInt32 (countIn (s.content path) writeCount + 1)) ∧
          u.files path = some (textContent x.2 (toInt32 u.uptime)))
      (littlefsTextFileWrite path writeCount) s := by
  apply Returns.of_safe (fun c t hc => answer_exists c t hc)
    (onFile_loopFree writeCount textSteps_loopFree)
  refine (littlefsTextFileWrite_spec trivial trivial).imp fun x u hx => ?_
  obtain ⟨hrc, hcount, hu⟩ := hx
  refine ⟨Prod.ext hrc hcount, ?_⟩
  rw [hu, Disk.commit_files_self]

/-! ## Counting -/

/-- `k` calls of the function, up to the first that fails. -/
def textWrites (path : String) : ℕ → ℤ → Prog Call (ℤ × ℤ)
  | 0, writeCount => return (0, writeCount)
  | k + 1, writeCount => do
    let (rc, writeCount) ← littlefsTextFileWrite path writeCount
    if rc < 0 then
      return (rc, writeCount)
    textWrites path k writeCount

/-- A file with a count that can go up. -/
structure Counts (path : String) (n : ℤ) (s : System) : Prop where
  isInt32 : IsInt32 n
  line : ∃ rest, s.files path = some (countLine n ++ rest)

theorem Counts.countIn (h : Counts path n s) (writeCount : ℤ) :
    countIn (s.content path) writeCount = n := by
  obtain ⟨rest, hfile⟩ := h.line
  have hcontent : s.content path = countLine n ++ rest := by
    rw [Disk.content, hfile, Option.getD_some]
  have hne : s.content path ≠ [] := by
    have hformat : countFormat ≠ [] := by decide
    simp [hcontent, countLine, hformat]
  rw [Littlefs.countIn, if_neg hne, hcontent]
  exact sscanfCount_countLine h.isInt32 rest writeCount

theorem counts_textContent (h : IsInt32 n) {time : ℤ}
    (hs : s.files path = some (textContent n time)) : Counts path n s := by
  obtain ⟨rest, hrest⟩ := textContent_eq n time
  exact ⟨h, rest, hrest ▸ hs⟩

/-- The last call has returned with count `n`, and the file is exactly the text with this count and
with the uptime that the clock has answered. -/
structure Wrote (path : String) (n : ℤ) (x : ℤ × ℤ) (s : System) : Prop where
  answer : x = (0, n)
  text : s.files path = some (textContent n (toInt32 s.uptime))

/-- One call. -/
theorem Counts.next (h : Counts path n s) (hn : n < 2 ^ 31 - 1) (writeCount : ℤ) :
    Returns (device noFaults) (diskWatch fun _ => True) (Wrote path (n + 1))
      (littlefsTextFileWrite path writeCount) s := by
  have hnext : toInt32 (n + 1) = n + 1 := by
    apply toInt32_of_isInt32
    have hlo := h.isInt32.1
    constructor <;> omega
  refine littlefsTextFileWrite_returns.imp fun x u hx => ?_
  obtain ⟨rfl, hu⟩ := hx
  rw [h.countIn, hnext] at hu ⊢
  exact ⟨rfl, hu⟩

/-- Before the first call the count is in the file, after each the file is the text. -/
def Counted (path : String) (n : ℤ) (k : ℕ) (x : ℤ × ℤ) (s : System) : Prop :=
  x.1 = 0 ∧ Counts path (n + k) s ∧ (k ≠ 0 → Wrote path (n + k) x s)

/-- After `k` calls, the file counts `k` more. -/
theorem Counts.textWrites (h : Counts path n s) (k : ℕ) (hk : n + k ≤ 2 ^ 31 - 1)
    (writeCount : ℤ) :
    Returns (device noFaults) (diskWatch fun _ => True) (Counted path n k)
      (textWrites path k writeCount) s := by
  induction k generalizing n s writeCount with
  | zero =>
    rw [Littlefs.textWrites, returns_pure, Counted, Int.natCast_zero, Int.add_zero]
    exact ⟨rfl, h, fun hne => absurd rfl hne⟩
  | succ k ih =>
    rw [Littlefs.textWrites, returns_bind]
    refine (h.next (by omega) writeCount).imp fun x u hx => ?_
    have hint : IsInt32 (n + 1) := by
      have hlo := h.isInt32.1
      constructor <;> omega
    have hcounts : Counts path (n + 1) u := counts_textContent hint hx.text
    obtain ⟨rfl, htext⟩ := hx
    dsimp only
    rw [if_neg (Int.lt_irrefl 0)]
    cases k with
    | zero =>
      rw [Littlefs.textWrites, returns_pure]
      exact ⟨rfl, hcounts, fun _ => ⟨rfl, htext⟩⟩
    | succ k =>
      refine (ih hcounts (by omega) (n + 1)).imp fun x v hv => ?_
      have hsum : n + ((k + 1 + 1 : ℕ) : ℤ) = n + 1 + ((k + 1 : ℕ) : ℤ) := by omega
      unfold Counted at hv ⊢
      rw [hsum]
      exact ⟨hv.1, hv.2.1, fun _ => hv.2.2 (Nat.succ_ne_zero k)⟩

/-- **The count survives its encoding.** The text is not cut off, the count is read back from 31
bytes of it, and each call leaves exactly the text with the next count and the uptime. -/
theorem count_survives (hn : IsInt32 n) (rest : List UInt8)
    (hs : s.files path = some (countLine n ++ rest)) (writeCount : ℤ) :
    (n < 2 ^ 31 - 1 →
      (∀ time, snprintf 256 (textContent (n + 1) (toInt32 time)) =
        textContent (n + 1) (toInt32 time)) ∧
      sscanfCount ((countLine n ++ rest).take 31) writeCount = n ∧
      Returns (device noFaults) (diskWatch fun _ => True)
        (fun x u => x = (0, n + 1) ∧
          u.files path = some (textContent (n + 1) (toInt32 u.uptime)))
        (littlefsTextFileWrite path writeCount) s) ∧
    ∀ k : ℕ, n + k ≤ 2 ^ 31 - 1 →
      Returns (device noFaults) (diskWatch fun _ => True)
        (fun x u => x.1 = 0 ∧ Counts path (n + k) u ∧
          (k ≠ 0 → x.2 = n + k ∧ u.files path = some (textContent (n + k) (toInt32 u.uptime))))
        (textWrites path k writeCount) s := by
  have hcounts : Counts path n s := ⟨hn, rest, hs⟩
  refine ⟨fun hlt => ⟨fun time => ?_, ?_, ?_⟩, fun k hk => ?_⟩
  · have hnext : IsInt32 (n + 1) := by
      have hlo := hn.1
      constructor <;> omega
    exact snprintf_textContent hnext (toInt32_isInt32 time)
  · exact sscanfCount_countLine hn rest writeCount
  · exact (hcounts.next hlt writeCount).imp fun x u hx => ⟨hx.answer, hx.text⟩
  · refine (hcounts.textWrites k hk writeCount).imp fun x u hx => ⟨hx.1, hx.2.1, fun hne => ?_⟩
    have hwrote := hx.2.2 hne
    exact ⟨congrArg Prod.snd hwrote.answer, hwrote.text⟩

/-- From 5 to 7, with two bytes after the old count's line. -/
theorem count_survives_five :
    Returns (device noFaults) (diskWatch fun _ => True)
      (fun x u => x.1 = 0 ∧ Counts "/lfs/test.txt" 7 u ∧ (2 ≠ 0 → x.2 = 7 ∧
        u.files "/lfs/test.txt" = some (textContent 7 (toInt32 u.uptime))))
      (textWrites "/lfs/test.txt" 2 0) (.holding "/lfs/test.txt" (countLine 5 ++ [1, 0])) :=
  (count_survives (n := 5) ⟨by omega, by omega⟩ [1, 0] (System.holding_files _ _) 0).2 2 (by decide)

end NrfProjects.Littlefs
