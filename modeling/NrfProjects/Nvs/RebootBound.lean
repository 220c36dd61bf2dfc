import NrfProjects.Nvs.Rules

/-! # How often the device reboots in a row

Each automatic reboot leaves the counter one higher, as long as no counter other than 0 is read or
written in vain. A single failing write then repeats the reboot, and failing writes for ever repeat
it for ever. -/

namespace NrfProjects.Nvs
set_option autoImplicit false
open Interaction Encoding

/-- No read of a counter other than 0 fails, and no write of one does. -/
structure CounterReliable (o : Outcomes) : Prop where
  read : ∀ s : Store, o.read RBT_CNT_ID (s RBT_CNT_ID) false → value s = 0
  write : ∀ v, 0 < v → v < 2 ^ 32 → ¬ o.write RBT_CNT_ID (toLE 4 v) false

variable {cfg : Config} {o : Outcomes} {s t : Store}

theorem readOrAdd_keeps {id len : ℕ} {added : List UInt8 → List UInt8} (hid : RBT_CNT_ID ≠ id) :
    Safe (device o) .none (readOrAdd id len added) t fun _ u => u RBT_CNT_ID = t RBT_CNT_ID := by
  refine (safe_readOrAdd_other trivial fun _ => trivial).imp fun _ u hu => ?_
  exact hu RBT_CNT_ID hid

theorem stringStep_keeps (c : ℕ) : Safe (device o) .none (stringStep c) t fun _ u =>
    u RBT_CNT_ID = t RBT_CNT_ID := by
  have hne : RBT_CNT_ID ≠ STRING_ID := by decide
  rw [safe_stringStep_iff]
  refine ⟨trivial, fun r _ => ?_⟩
  split_ifs
  · exact ⟨trivial, fun _ _ hu => answer_nvsDelete_other hu hne⟩
  · rfl
  · exact ⟨trivial, fun _ _ hu => answer_nvsWrite_other hu hne⟩
  · rfl

/-- The counter in RAM is the stored one: a failing read is taken for 0, and that is what it is. -/
theorem counterStep_loads (ho : CounterReliable o) (hw : CounterWord t) :
    Safe (device o) .none counterStep t fun c u => c = value t ∧ CounterWord u := by
  unfold counterStep
  rw [safe_bind, safe_readOrAdd_iff]
  refine ⟨trivial, fun r hr => ?_⟩
  have hload : loadCounter r.2 = value t := by
    rcases hr.2 with ⟨-, rfl⟩ | ⟨hfail, -, hdata⟩
    · exact loadCounter_readItem hw
    · rw [hdata, ho.read t hfail]
      decide
  by_cases hpos : 0 < r.1
  · rw [if_pos hpos, safe_pure]
    exact ⟨hload, hw⟩
  · rw [if_neg hpos]
    refine ⟨trivial, fun r' u hu => ?_⟩
    rw [safe_pure]
    refine ⟨hload, ?_⟩
    rcases hu with ⟨-, -, rfl⟩ | ⟨-, -, rfl⟩
    · exact setCounter_word t _
    · exact hw

theorem prepare_loads (ho : CounterReliable o) (hw : CounterWord s) :
    Safe (device o) .none prepare s fun r u => ∀ c, r = some c → c = value s ∧ CounterWord u := by
  have hitems : Safe (device o) .none itemSteps s fun c u => c = value s ∧ CounterWord u := by
    unfold itemSteps addressStep keyStep
    rw [safe_bind]
    refine (readOrAdd_keeps (by decide)).imp fun _ t₁ h₁ => ?_
    rw [safe_bind]
    refine (readOrAdd_keeps (by decide)).imp fun _ t₂ h₂ => ?_
    rw [safe_bind]
    have hkept : t₂ RBT_CNT_ID = s RBT_CNT_ID := h₂.trans h₁
    refine (counterStep_loads ho (hw.congr hkept)).imp fun c t₃ h₃ => ?_
    rw [safe_bind]
    refine (stringStep_keeps c).imp fun _ t₄ h₄ => ?_
    rw [safe_pure]
    exact ⟨h₃.1.trans (value_congr hkept), h₃.2.congr h₄⟩
  rw [safe_prepare_iff]
  refine ⟨trivial, fun _ c hc => absurd hc (by simp), fun _ => ⟨trivial, trivial, ?_⟩⟩
  refine hitems.imp fun c u hu c' hc => ?_
  rw [Option.some.injEq] at hc
  exact hc ▸ hu

/-- A boot that ends in a reboot has moved the counter on by one. -/
theorem main_counts (ho : CounterReliable o) (hw : CounterWord s) :
    Safe (device o) .none (main cfg) s fun e u => e = .rebooted →
      value s < cfg.maxReboot ∧ value u = value s + 1 ∧ CounterWord u := by
  unfold main
  rw [safe_bind]
  refine (prepare_loads ho hw).imp fun r t ht => ?_
  cases r with
  | none => simp
  | some c =>
    obtain ⟨hc, -⟩ := ht c rfl
    apply safe_countdown trivial (fun _ => trivial) trivial
    intro r u hu he
    have hlt : c < cfg.maxReboot := by
      by_contra hge
      rw [exit, if_neg hge] at he
      exact absurd he (by decide)
    have hnext : next cfg c = c + 1 := if_pos hlt
    have hword := next_lt cfg c
    rw [hnext] at hu hword
    rw [← hc]
    rcases hu with ⟨-, -, rfl⟩ | ⟨hfail, -, -⟩
    · exact ⟨hlt, value_setCounter t hword, setCounter_word t _⟩
    · exact absurd hfail (ho.write (c + 1) (by omega) hword)

theorem History.counted {l : List (Store × Option Exit)} (ho : CounterReliable o)
    (hw : CounterWord s) (h : History (device o) id (main cfg) s l t)
    (hl : ∀ b ∈ l, b.2 = some .rebooted) :
    CounterWord t ∧ value t = value s + l.length ∧ (l ≠ [] → value t ≤ cfg.maxReboot) := by
  induction h with
  | start => exact ⟨hw, rfl, fun hne => absurd rfl hne⟩
  | @boot u t l r hprev hb ih =>
    obtain ⟨hu, hvalue, -⟩ := ih fun b hb => hl b (List.mem_append_left _ hb)
    obtain rfl : r = some .rebooted := hl (u, r) (by simp)
    cases hb with
    | finished hs =>
      obtain ⟨hlt, hnext, ht⟩ := (main_counts ho hu).result hs rfl
      refine ⟨ht, ?_, fun _ => ?_⟩
      · rw [List.length_append, List.length_singleton]
        omega
      · omega

/-- **The bound.** At most `MAX` boots in a row end in a reboot. -/
theorem reboots_le {l : List (Store × Option Exit)} (ho : CounterReliable o) (hw : CounterWord s)
    (h : History (device o) id (main cfg) s l t) (hl : ∀ b ∈ l, b.2 = some .rebooted) :
    l.length ≤ cfg.maxReboot := by
  obtain ⟨-, hvalue, hle⟩ := History.counted ho hw h hl
  by_cases hne : l = []
  · rw [hne]
    exact Nat.zero_le _
  · have := hle hne
    omega

theorem allSucceed_reliable : CounterReliable allSucceed :=
  ⟨fun _ hfail => absurd hfail (by simp), fun _ _ _ hfail => absurd hfail (by simp)⟩

/-- On an empty store the bound is reached. -/
theorem reboots_le_first : ∃ s t, ∃ l : List (Store × Option Exit),
    l = [(fun _ => none, some .rebooted), (s, some .rebooted)] ∧
      History (device allSucceed) id (main twoReboots) (fun _ => none) l t ∧
      l.length ≤ twoReboots.maxReboot := by
  obtain ⟨s, t, _, hfirst, hsecond, -, -⟩ := first_boots
  have h := ((History.start _).boot hfirst).boot hsecond
  exact ⟨s, t, _, rfl, h, reboots_le allSucceed_reliable (fun _ hd => absurd hd (by simp)) h (by simp)⟩

/-- Any call may fail. -/
def anyOutcome : Outcomes := ⟨fun _ => True, fun _ _ _ => True, fun _ _ _ => True, fun _ _ => True⟩

/-- With a maximum of one reboot, two boots in a row reboot when the writes of the counter fail. -/
theorem reboots_again : ∃ s t,
    History (device anyOutcome) id (main oneReboot) (fun _ => none)
        [(fun _ => none, some .rebooted), (s, some .rebooted)] t ∧
      oneReboot.maxReboot < 2 := by
  have hfollows : Script.Follows (script (fun _ => false) fun id => id == RBT_CNT_ID)
      (device anyOutcome) :=
    script_follows trivial (fun _ _ => trivial) (fun _ _ => trivial) fun _ => trivial
  have hb : Boot (device anyOutcome) id (main oneReboot) (fun _ => none) (some .rebooted) _ :=
    .of_replay hfollows 20 (Prod.ext (by rfl) rfl)
  exact ⟨_, _, ((History.start _).boot hb).boot (.of_replay hfollows 20 (Prod.ext (by rfl) rfl)),
    by decide⟩

end NrfProjects.Nvs
