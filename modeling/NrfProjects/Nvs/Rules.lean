import NrfProjects.Nvs.Store

/-! # What the parts of the NVS demo do

One rule for each part that reads and writes, for any device and any watch: reading or adding an
item, printing the history, and the countdown. -/

namespace NrfProjects.Nvs
set_option autoImplicit false
open Interaction Encoding

variable {o : Outcomes} {W : Watch Call Store} {s t : Store}

theorem safe_readOrAdd_iff {id len : ℕ} {added : List UInt8 → List UInt8}
    {Q : List UInt8 → Store → Prop} :
    Safe (device o) W (readOrAdd id len added) t Q ↔
      W.atCall (.nvsRead id len) t ∧ ∀ r, (device o).answer (.nvsRead id len) t r t →
        if 0 < r.1 then Q r.2 t
        else W.atCall (.nvsWrite id (added r.2)) t ∧
          ∀ r' u, (device o).answer (.nvsWrite id (added r.2)) t r' u → Q r.2 u := by
  unfold readOrAdd
  rw [safe_bind, safe_lift]
  refine and_congr_right fun _ => ⟨fun h r hr => ?_, fun h r u hu => ?_⟩
  · have hsafe := h r t hr
    by_cases hpos : 0 < r.1
    · rw [if_pos hpos]
      simpa [hpos] using hsafe
    · rw [if_neg hpos]
      simpa [hpos, safe_bind] using hsafe
  · obtain rfl : u = t := hu.1
    have hsafe := h r hu
    by_cases hpos : 0 < r.1
    · rw [if_pos hpos] at hsafe
      simpa [hpos] using hsafe
    · rw [if_neg hpos] at hsafe
      simpa [hpos, safe_bind] using hsafe

/-- Reading or adding an item leaves the others alone. -/
theorem answer_nvsWrite_other {id id' : ℕ} {data : List UInt8} {r : ℤ}
    (h : (device o).answer (.nvsWrite id data) s r t) (hne : id' ≠ id) : t id' = s id' := by
  rcases h with ⟨-, -, rfl⟩ | ⟨-, -, rfl⟩
  · exact Function.update_of_ne hne _ _
  · rfl

theorem answer_nvsDelete_other {id id' : ℕ} {r : ℤ}
    (h : (device o).answer (.nvsDelete id) s r t) (hne : id' ≠ id) : t id' = s id' := by
  rcases h with ⟨-, -, rfl⟩ | ⟨-, -, rfl⟩
  · exact Function.update_of_ne hne _ _
  · rfl

theorem safe_readOrAdd_other {id len : ℕ} {added : List UInt8 → List UInt8}
    (hread : W.atCall (.nvsRead id len) t) (hwrite : ∀ data, W.atCall (.nvsWrite id data) t) :
    Safe (device o) W (readOrAdd id len added) t fun _ u => ∀ id', id' ≠ id → u id' = t id' := by
  rw [safe_readOrAdd_iff]
  refine ⟨hread, fun r _ => ?_⟩
  by_cases hpos : 0 < r.1
  · rw [if_pos hpos]
    exact fun _ _ => rfl
  · rw [if_neg hpos]
    exact ⟨hwrite _, fun _ _ hu _ hne => answer_nvsWrite_other hu hne⟩

theorem safe_stringStep_iff {c : ℕ} {Q : Unit → Store → Prop} :
    Safe (device o) W (stringStep c) t Q ↔
      W.atCall (.nvsRead STRING_ID 16) t ∧ ∀ r, (device o).answer (.nvsRead STRING_ID 16) t r t →
        if 0 < r.1 then
          if c = 10 then W.atCall (.nvsDelete STRING_ID) t ∧
            ∀ r' u, (device o).answer (.nvsDelete STRING_ID) t r' u → Q () u
          else Q () t
        else if c = 0 then W.atCall (.nvsWrite STRING_ID defaultString) t ∧
            ∀ r' u, (device o).answer (.nvsWrite STRING_ID defaultString) t r' u → Q () u
          else Q () t := by
  -- what comes after the read
  have hrest : ∀ r : ℤ × List UInt8,
      Safe (device o) W (if r.1 > 0 then
          if c = 10 then do
            let _ ← Call.nvsDelete STRING_ID
            pure PUnit.unit
          else pure PUnit.unit
        else if c = 0 then do
            let _ ← Call.nvsWrite STRING_ID defaultString
            pure PUnit.unit
          else pure PUnit.unit) t Q ↔
        if 0 < r.1 then
          if c = 10 then W.atCall (.nvsDelete STRING_ID) t ∧
            ∀ r' u, (device o).answer (.nvsDelete STRING_ID) t r' u → Q () u
          else Q () t
        else if c = 0 then W.atCall (.nvsWrite STRING_ID defaultString) t ∧
            ∀ r' u, (device o).answer (.nvsWrite STRING_ID defaultString) t r' u → Q () u
          else Q () t := by
    intro r
    by_cases hpos : 0 < r.1
    · by_cases h10 : c = 10 <;> simp only [if_pos hpos, h10, if_true, if_false, safe_bind,
        safe_lift, safe_pure]
    · by_cases h0 : c = 0 <;> simp only [if_neg hpos, h0, if_true, if_false, safe_bind,
        safe_lift, safe_pure]
  unfold stringStep
  rw [safe_bind, safe_lift]
  refine and_congr_right fun _ => ⟨fun h r hr => (hrest r).mp (h r t hr), fun h r u hu => ?_⟩
  obtain rfl : u = t := hu.1
  exact (hrest r).mpr (h r hu)

theorem safe_prepare_iff {Q : Option ℕ → Store → Prop} :
    Safe (device o) W prepare s Q ↔
      W.atCall .deviceIsReady s ∧ (o.setup false → Q none s) ∧ (o.setup true →
        W.atCall .flashGetPageInfoByOffs s ∧ W.atCall .nvsMount s ∧
          Safe (device o) W itemSteps s fun c u => Q (some c) u) := by
  have hfail : ∀ {rc : ℤ}, rc ≠ 0 → (rc == 0) = false := beq_eq_false_iff_ne.mpr
  unfold prepare
  simp only [safe_bind, safe_lift, answer_deviceIsReady]
  refine and_congr_right fun _ => ⟨fun h => ⟨fun hno => ?_, fun hyes => ?_⟩, fun h ready u hu => ?_⟩
  · simpa using h false s ⟨hno, rfl⟩
  · have hinfo := h true s ⟨hyes, rfl⟩
    simp only [if_true, safe_bind, safe_lift] at hinfo
    have hmount := hinfo.2 0 s ⟨hyes, rfl⟩
    simp only [ne_eq, not_true_eq_false, if_false, safe_bind, safe_lift] at hmount
    have hitems := hmount.2 0 s ⟨hyes, rfl⟩
    simp only [not_true_eq_false, if_false, safe_bind, safe_pure] at hitems
    exact ⟨hinfo.1, hmount.1, hitems⟩
  · obtain ⟨hok, rfl⟩ := hu
    cases ready with
    | false => simpa using h.1 hok
    | true =>
      obtain ⟨hinfo, hmount, hitems⟩ := h.2 hok
      simp only [if_true, safe_bind, safe_lift]
      refine ⟨hinfo, ?_⟩
      rintro rc v ⟨hok, rfl⟩
      by_cases hrc : rc = 0
      · simp only [hrc, ne_eq, not_true_eq_false, if_false, safe_bind, safe_lift]
        refine ⟨hmount, ?_⟩
        rintro rc w ⟨hok, rfl⟩
        by_cases hrc : rc = 0
        · simpa [hrc, safe_bind] using hitems
        · rw [hfail hrc] at hok
          simpa [hrc] using h.1 hok
      · rw [hfail hrc] at hok
        simpa [hrc] using h.1 hok

/-! ## The countdown -/

/-- The counter that the countdown writes for a counter `v` in RAM. -/
def next (cfg : Config) (v : ℕ) : ℕ := if v < cfg.maxReboot then v + 1 else 0

/-- How the countdown ends. -/
def exit (cfg : Config) (v : ℕ) : Exit := if v < cfg.maxReboot then .rebooted else .returned

theorem next_lt (cfg : Config) (v : ℕ) : next cfg v < 2 ^ 32 := by
  have := cfg.maxReboot_lt
  unfold next
  split <;> omega

theorem safe_history {n : ℕ} (hloop : W.atLoop t)
    (hcall : ∀ n, W.atCall (.nvsReadHist RBT_CNT_ID 4 n) t) :
    Safe (device o) W (history n) t fun _ u => u = t := by
  unfold history
  refine Safe.repeatM_quiet (fun _ u => u = t) rfl (fun _ _ hu => hu ▸ hloop) ?_
  rintro m u rfl
  rw [safe_bind, safe_lift]
  refine ⟨hcall m, ?_⟩
  rintro r v rfl
  by_cases hneg : r.1 < 0 <;> simp [hneg]

theorem safe_countdown {cfg : Config} {c : ℕ} {Q : Exit → Store → Prop} (hloop : W.atLoop t)
    (hhist : ∀ n, W.atCall (.nvsReadHist RBT_CNT_ID 4 n) t)
    (hwrite : W.atCall (.nvsWrite RBT_CNT_ID (toLE 4 (next cfg c))) t)
    (hQ : ∀ r u, (device o).answer (.nvsWrite RBT_CNT_ID (toLE 4 (next cfg c))) t r u →
      Q (exit cfg c) u) :
    Safe (device o) W (countdown cfg c) t Q := by
  unfold countdown
  refine Safe.repeatM_quiet (fun _ u => u = t) rfl (fun _ _ hu => hu ▸ hloop) ?_
  rintro ⟨cnt, cntHis⟩ u rfl
  unfold countdownRound
  by_cases hlt : c < cfg.maxReboot
  · have hexit : exit cfg c = .rebooted := if_pos hlt
    have hnext : next cfg c = (c + 1) % 2 ^ 32 := by
      have := cfg.maxReboot_lt
      rw [next, if_pos hlt]
      omega
    rw [hnext] at hwrite hQ
    -- the rest of the round, whether or not the history was printed
    have hrest : ∀ n, Safe (device o) W
        (if cnt - 1 = 0 then do
          let _ ← Call.nvsWrite RBT_CNT_ID (toLE 4 ((c + 1) % 2 ^ 32))
          return .inr .rebooted
        else return .inl (cnt - 1, n) : Prog Call ((ℤ × ℕ) ⊕ Exit)) u
        fun x v => x.elim (fun _ => v = u) fun e => Q e v := by
      intro n
      by_cases hz : cnt - 1 = 0
      · simp only [if_pos hz, safe_bind, safe_lift, safe_pure]
        exact ⟨hwrite, fun r v hv => hexit ▸ hQ r v hv⟩
      · simp [hz]
    by_cases hcnt : cnt = cfg.countdown
    · simp only [if_pos hlt, if_pos hcnt, safe_bind]
      refine (safe_history hloop hhist).imp ?_
      rintro n v rfl
      exact hrest n
    · simpa [hlt, hcnt] using hrest cntHis
  · have hexit : exit cfg c = .returned := if_neg hlt
    have hnext : next cfg c = 0 := if_neg hlt
    rw [hnext] at hwrite hQ
    simp only [if_neg hlt, safe_bind, safe_lift, safe_pure]
    exact ⟨hwrite, fun r v hv => hexit ▸ hQ r v hv⟩

end NrfProjects.Nvs
