import NrfProjects.Interaction.Returns
import NrfProjects.Nvs.RebootBound
import NrfProjects.Nvs.RebootCycle

/-! # Every boot ends, and how

The countdown and the history of the counter are loops, and the first contains the second: a boot
comes to its end whatever each call answers, as long as the flash keeps a finite history. With no
failing call the boots then go round a cycle of exactly `MAX_REBOOT + 1`. -/

namespace NrfProjects.Nvs
set_option autoImplicit false
open Interaction Encoding

/-- Any call may fail, and the counter has at most `depth` earlier values. -/
def recorded (depth : ℕ) : Device Call Store where
  answer
    | .nvsReadHist id len cnt, s, r, t =>
      (device anyOutcome).answer (.nvsReadHist id len cnt) s r t ∧ (depth ≤ cnt → r.1 < 0)
    | c, s, r, t => (device anyOutcome).answer c s r t
  move _ _ := False

instance (depth : ℕ) : (recorded depth).Quiet := ⟨fun _ _ h => h⟩

variable {depth : ℕ} {cfg : Config} {s t : Store}

theorem recorded_answers {ρ : Type} (c : Call ρ) (s : Store) :
    ∃ r t, (recorded depth).answer c s r t := by
  cases c with
  | deviceIsReady => exact ⟨true, s, trivial, rfl⟩
  | flashGetPageInfoByOffs => exact ⟨0, s, trivial, rfl⟩
  | nvsMount => exact ⟨0, s, trivial, rfl⟩
  | nvsRead id len => exact ⟨readItem s id len, s, rfl, .inl ⟨trivial, rfl⟩⟩
  | nvsWrite id data => exact ⟨0, _, .inl ⟨trivial, Int.le_refl 0, rfl⟩⟩
  | nvsDelete id => exact ⟨0, _, .inl ⟨trivial, rfl, rfl⟩⟩
  | nvsReadHist id len cnt => exact ⟨(-1, []), s, rfl, fun _ => by decide⟩

/-! ## Every boot ends -/

theorem readOrAdd_loopFree (id len : ℕ) (added : List UInt8 → List UInt8) :
    (readOrAdd id len added).LoopFree := by
  unfold readOrAdd
  apply Prog.LoopFree.bind (loopFree_lift _)
  intro r
  apply Prog.LoopFree.ite (loopFree_pure _)
  exact Prog.LoopFree.bind (loopFree_lift _) fun _ => loopFree_pure _

theorem stringStep_loopFree (c : ℕ) : (stringStep c).LoopFree := by
  have hcall : ∀ call : Call ℤ, (do let _ ← call : Prog Call Unit).LoopFree :=
    fun call => Prog.LoopFree.bind (loopFree_lift call) fun _ => loopFree_pure _
  unfold stringStep
  apply Prog.LoopFree.bind (loopFree_lift _)
  intro r
  apply Prog.LoopFree.ite
  · exact .ite (hcall _) (loopFree_pure _)
  · exact .ite (hcall _) (loopFree_pure _)

theorem itemSteps_loopFree : itemSteps.LoopFree := by
  unfold itemSteps addressStep keyStep counterStep
  apply Prog.LoopFree.bind (readOrAdd_loopFree _ _ _)
  intro _
  apply Prog.LoopFree.bind (readOrAdd_loopFree _ _ _)
  intro _
  apply Prog.LoopFree.bind (Prog.LoopFree.bind (readOrAdd_loopFree _ _ _) fun _ => loopFree_pure _)
  intro c
  exact Prog.LoopFree.bind (stringStep_loopFree c) fun _ => loopFree_pure _

theorem prepare_loopFree : prepare.LoopFree := by
  unfold prepare
  apply Prog.LoopFree.bind (loopFree_lift _)
  intro ready
  apply Prog.LoopFree.ite _ (loopFree_pure _)
  apply Prog.LoopFree.bind (loopFree_lift _)
  intro rc
  apply Prog.LoopFree.ite (loopFree_pure _)
  apply Prog.LoopFree.bind (loopFree_lift _)
  intro rc
  apply Prog.LoopFree.ite (loopFree_pure _)
  exact Prog.LoopFree.bind itemSteps_loopFree fun _ => loopFree_pure _

theorem safe_none {α : Type} {D : Device Call Store} (p : Prog Call α) (s : Store) :
    Safe D .none p s fun _ _ => True := by
  intro q t _
  cases q <;> trivial

theorem call_returns {ρ : Type} (c : Call ρ) (s : Store) :
    Returns (recorded depth) .none (fun _ _ => True) (liftM c) s :=
  Returns.of_safe (fun c t _ => recorded_answers c t) (loopFree_lift c) (safe_none _ s)

/-- The history is printed to its end. -/
theorem history_returns (n : ℕ) (s : Store) :
    Returns (recorded depth) .none (fun _ _ => True) (history n) s := by
  unfold history
  apply Returns.repeatM (fun _ _ => True) (measure fun x : ℕ × Store => depth - x.1).wf trivial
  intro n t u _ _
  refine ⟨trivial, ?_⟩
  rw [returns_bind, returns_lift]
  refine ⟨trivial, recorded_answers _ _, fun r v ha => ?_⟩
  obtain ⟨rc, data⟩ := r
  by_cases hneg : rc < 0
  · simp only [if_pos hneg, returns_pure]
    trivial
  · simp only [if_neg hneg, returns_pure]
    have hlt : n < depth := Nat.not_le.mp fun hle => hneg (ha.2 hle)
    refine ⟨trivial, ?_⟩
    show depth - (n + 1) < depth - n
    omega

/-- The countdown goes down, whether or not a round prints the history. -/
theorem countdown_returns (c : ℕ) (s : Store) :
    Returns (recorded depth) .none (fun _ _ => True) (countdown cfg c) s := by
  have hone := cfg.one_le_countdown
  unfold countdown
  apply Returns.repeatM (fun x _ => 1 ≤ x.1)
    (measure fun x : (ℤ × ℕ) × Store => x.1.1.toNat).wf (by omega)
  intro x t u hx _
  obtain ⟨cnt, cntHis⟩ := x
  refine ⟨trivial, ?_⟩
  have hrest : ∀ (n : ℕ) (v : Store), Returns (recorded depth) .none
      (fun y w => y.elim (fun b => 1 ≤ b.1 ∧ b.1.toNat < cnt.toNat) fun _ => True)
      (if cnt - 1 = 0 then do
        let _ ← Call.nvsWrite RBT_CNT_ID (toLE 4 ((c + 1) % 2 ^ 32))
        return .inr .rebooted
      else return .inl (cnt - 1, n) : Prog Call ((ℤ × ℕ) ⊕ Exit)) v := by
    intro n v
    by_cases hz : cnt - 1 = 0
    · rw [if_pos hz, returns_bind]
      exact (call_returns _ v).imp fun _ _ _ => returns_pure.mpr trivial
    · rw [if_neg hz, returns_pure]
      refine ⟨?_, ?_⟩
      · show 1 ≤ cnt - 1
        omega
      · show (cnt - 1).toNat < cnt.toNat
        omega
  unfold countdownRound
  by_cases hlt : c < cfg.maxReboot
  · by_cases hcnt : cnt = cfg.countdown
    · simp only [if_pos hlt, if_pos hcnt, returns_bind]
      exact (history_returns cntHis u).imp fun n v _ => hrest n v
    · simp only [if_pos hlt, if_neg hcnt]
      exact hrest cntHis u
  · simp only [if_neg hlt, returns_bind]
    exact (call_returns _ u).imp fun _ _ _ => returns_pure.mpr trivial

/-- **Every boot ends**, from any store and whatever each call answers. -/
theorem boot_ends (depth : ℕ) (cfg : Config) (s : Store) :
    Returns (recorded depth) .none (fun _ _ => True) (main cfg) s := by
  have hprepare : Returns (recorded depth) .none (fun _ _ => True) prepare s :=
    Returns.of_safe (fun c t _ => recorded_answers c t) prepare_loopFree (safe_none _ s)
  unfold main
  rw [returns_bind]
  apply hprepare.imp
  intro r t _
  cases r with
  | none => exact returns_pure.mpr trivial
  | some c => exact countdown_returns c t

/-! ## The cycle -/

/-- How a boot ends, and the counter it leaves. -/
theorem main_exit (hw : CounterWord s) :
    Safe (device allSucceed) .none (main cfg) s fun e t =>
      e = exit cfg (value s) ∧ CounterWord t ∧ value t = next cfg (value s) := by
  unfold main
  rw [safe_bind]
  apply (prepare_spec cfg hw).mono (fun _ _ => trivial) fun _ _ _ => trivial
  intro r t ht
  obtain ⟨c, rfl, hready⟩ := ht
  apply safe_countdown trivial (fun _ => trivial) trivial
  intro r u ha
  rcases ha with ⟨-, -, rfl⟩ | ⟨hfail, -, -⟩
  · rw [← hready.loaded]
    exact ⟨rfl, setCounter_word t _, value_setCounter t (next_lt cfg c)⟩
  · exact absurd hfail (by simp)

theorem next_mod (cfg : Config) {v : ℕ} (hv : v ≤ cfg.maxReboot) :
    next cfg v = (v + 1) % (cfg.maxReboot + 1) := by
  unfold next
  split_ifs with hlt
  · exact (Nat.mod_eq_of_lt (Nat.succ_lt_succ hlt)).symm
  · have heq : v = cfg.maxReboot := Nat.le_antisymm hv (Nat.not_lt.mp hlt)
    rw [heq, Nat.mod_self]

theorem exit_eq_returned_iff (cfg : Config) {v : ℕ} (hv : v ≤ cfg.maxReboot) :
    exit cfg v = .returned ↔ v = cfg.maxReboot := by
  unfold exit
  split_ifs with hlt
  · simp only [false_iff]
    omega
  · simp only [true_iff]
    omega

/-- **The cycle.** Over any number of complete boots without a failing call, the counter goes round
modulo `MAX_REBOOT + 1`, and the boots that return are those that start from the maximum. -/
theorem counter_cycle {l : List (Store × Option Exit)} (hw : CounterWord s)
    (hv : value s ≤ cfg.maxReboot) (h : History (device allSucceed) id (main cfg) s l t)
    (hl : ∀ b ∈ l, b.2 ≠ none) :
    value t = (value s + l.length) % (cfg.maxReboot + 1) ∧
      ∀ i b, l[i]? = some b →
        (b.2 = some .returned ↔ (value s + i) % (cfg.maxReboot + 1) = cfg.maxReboot) := by
  suffices hword : CounterWord t ∧ value t = (value s + l.length) % (cfg.maxReboot + 1) ∧
      ∀ i b, l[i]? = some b →
        (b.2 = some .returned ↔ (value s + i) % (cfg.maxReboot + 1) = cfg.maxReboot) from hword.2
  induction h with
  | start => exact ⟨hw, (Nat.mod_eq_of_lt (Nat.lt_succ_of_le hv)).symm, by simp⟩
  | @boot u t l o hl' hb ih =>
    obtain ⟨hu, hvalue, hends⟩ := ih fun b hb => hl b (List.mem_append_left _ hb)
    have hle : value u ≤ cfg.maxReboot := by
      rw [hvalue]
      exact Nat.le_of_lt_succ (Nat.mod_lt _ (Nat.succ_pos _))
    cases o with
    | none => exact absurd rfl (hl (u, none) (by simp))
    | some e =>
      obtain ⟨he, ht, hnext⟩ : e = exit cfg (value u) ∧ CounterWord t ∧ value t = next cfg (value u) := by
        cases hb with
        | finished hs => exact (main_exit hu).result hs
      refine ⟨ht, ?_, fun i b hi => ?_⟩
      · rw [hnext, next_mod cfg hle, hvalue, Nat.mod_add_mod, List.length_append,
          List.length_singleton, Nat.add_assoc]
      · by_cases hlt : i < l.length
        · rw [List.getElem?_append_left hlt] at hi
          exact hends i b hi
        · have hlen := (List.getElem?_eq_some_iff.mp hi).1
          rw [List.length_append, List.length_singleton] at hlen
          obtain rfl : i = l.length := by omega
          rw [List.getElem?_concat_length] at hi
          cases hi
          rw [← hvalue, he, Option.some.injEq]
          exact exit_eq_returned_iff cfg hle

/-- The first three boots on an empty store go round once, with a maximum of two reboots. -/
theorem counter_cycle_first : ∃ s t u,
    History (device allSucceed) id (main twoReboots) (fun _ => none)
        [(fun _ => none, some .rebooted), (s, some .rebooted), (t, some .returned)] u ∧
      value u = 0 := by
  obtain ⟨s, t, u, hfirst, hsecond, -, hreturned⟩ := first_boots
  have h := (((History.start _).boot hfirst).boot hsecond).boot hreturned
  refine ⟨s, t, u, h, ?_⟩
  have hempty : value (fun _ => none) = 0 := rfl
  have hcycle := (counter_cycle (fun _ hd => absurd hd (by simp)) (by rw [hempty]; decide) h
    (by simp)).1
  rw [hcycle, hempty]
  exact Nat.mod_self 3

end NrfProjects.Nvs
