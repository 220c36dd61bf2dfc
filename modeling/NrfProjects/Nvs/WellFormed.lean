import Mathlib.Tactic.SplitIfs
import NrfProjects.Nvs.Rules

/-! # What the flash can hold

Whatever calls fail and whenever power is cut, every item in the store is one that the program
writes under that id. So a string that is read back ends in its zero, within the buffer, and the
counter never exceeds `MAX_REBOOT`. -/

namespace NrfProjects.Nvs
set_option autoImplicit false
open Interaction Encoding

/-- The data the program writes under an id. -/
def Known (cfg : Config) (id : ℕ) (data : List UInt8) : Prop :=
  id = ADDRESS_ID ∧ data = defaultAddress ∨ id = KEY_ID ∧ data = defaultKey ∨
    id = STRING_ID ∧ data = defaultString ∨
      id = RBT_CNT_ID ∧ ∃ v, v ≤ cfg.maxReboot ∧ data = toLE 4 v

def WellFormed (cfg : Config) (s : Store) : Prop := ∀ id d, s id = some d → Known cfg id d.bytes

variable {cfg : Config} {o : Outcomes} {s t u : Store}

theorem wellFormed_empty (cfg : Config) : WellFormed cfg fun _ => none := nofun

theorem WellFormed.write {id : ℕ} {data : List UInt8} {r : ℤ} (h : WellFormed cfg s)
    (hdata : Known cfg id data) (ha : (device o).answer (.nvsWrite id data) s r t) :
    WellFormed cfg t := by
  rcases ha with ⟨-, -, rfl⟩ | ⟨-, -, rfl⟩
  · intro id' d hd
    by_cases hid : id' = id
    · subst hid
      rw [Function.update_self, Item.ofData] at hd
      split_ifs at hd
      cases hd
      exact hdata
    · rw [Function.update_of_ne hid] at hd
      exact h id' d hd
  · exact h

theorem WellFormed.delete {id : ℕ} {r : ℤ} (h : WellFormed cfg s)
    (ha : (device o).answer (.nvsDelete id) s r t) : WellFormed cfg t := by
  rcases ha with ⟨-, -, rfl⟩ | ⟨-, -, rfl⟩
  · intro id' d hd
    by_cases hid : id' = id
    · subst hid
      simp at hd
    · rw [Function.update_of_ne hid] at hd
      exact h id' d hd
  · exact h

/-! ## The counter that a boot loads -/

theorem known_counter {data : List UInt8} (h : Known cfg RBT_CNT_ID data) :
    ∃ v, v ≤ cfg.maxReboot ∧ data = toLE 4 v := by
  rcases h with ⟨hid, -⟩ | ⟨hid, -⟩ | ⟨hid, -⟩ | ⟨-, hv⟩
  · cases hid
  · cases hid
  · cases hid
  · exact hv

/-- The counter that a boot loads, from whatever its read answers, is at most the maximum. -/
theorem WellFormed.load_le {r : ℤ × List UInt8} (h : WellFormed cfg s)
    (ha : (device o).answer (.nvsRead RBT_CNT_ID 4) s r t) : loadCounter r.2 ≤ cfg.maxReboot := by
  have hmax := cfg.maxReboot_lt
  have hnone : loadCounter [] ≤ cfg.maxReboot := by
    simp [loadCounter, ofLE_toLE]
  rcases ha.2 with ⟨-, rfl⟩ | ⟨-, -, hr⟩
  · cases hd : s RBT_CNT_ID with
    | none =>
      rw [readItem_absent 4 hd]
      exact hnone
    | some d =>
      obtain ⟨v, hv, hdata⟩ := known_counter (h _ d hd)
      have hlen : (toLE 4 v).take 4 = toLE 4 v := List.take_of_length_le (by simp)
      have hword : ofLE (toLE 4 v) = v := ofLE_toLE_of_lt (by omega)
      have hdrop : (toLE 4 0).drop 4 = [] := rfl
      simp only [readItem_present 4 hd, hdata, hlen, loadCounter, length_toLE]
      rw [hdrop, List.append_nil, hword]
      exact hv
  · rw [hr]
    exact hnone

theorem next_le (cfg : Config) (v : ℕ) : next cfg v ≤ cfg.maxReboot := by
  unfold next
  split_ifs <;> omega

/-! ## The parts of a boot -/

theorem readOrAdd_wellFormed {id len : ℕ} {added : List UInt8 → List UInt8}
    {Q : List UInt8 → Prop} (h : WellFormed cfg s)
    (hadded : ∀ r, (device o).answer (.nvsRead id len) s r s → Q r.2 ∧ Known cfg id (added r.2)) :
    Safe (device o) (.always (WellFormed cfg)) (readOrAdd id len added) s fun data t =>
      WellFormed cfg t ∧ Q data := by
  rw [safe_readOrAdd_iff]
  refine ⟨h, fun r hr => ?_⟩
  obtain ⟨hq, hknown⟩ := hadded r hr
  split_ifs
  · exact ⟨h, hq⟩
  · exact ⟨h, fun _ t ha => ⟨h.write hknown ha, hq⟩⟩

theorem counterStep_wellFormed (h : WellFormed cfg s) :
    Safe (device o) (.always (WellFormed cfg)) counterStep s fun c t =>
      WellFormed cfg t ∧ c ≤ cfg.maxReboot := by
  unfold counterStep
  rw [safe_bind]
  apply Safe.imp (readOrAdd_wellFormed (Q := fun data => loadCounter data ≤ cfg.maxReboot) h ?_)
  · intro data t ht
    rw [safe_pure]
    exact ht
  · intro r hr
    have hle := h.load_le hr
    exact ⟨hle, .inr (.inr (.inr ⟨rfl, loadCounter r.2, hle, rfl⟩))⟩

theorem stringStep_wellFormed (c : ℕ) (h : WellFormed cfg s) :
    Safe (device o) (.always (WellFormed cfg)) (stringStep c) s fun _ t => WellFormed cfg t := by
  rw [safe_stringStep_iff]
  refine ⟨h, fun r _ => ?_⟩
  split_ifs
  · exact ⟨h, fun _ _ ha => h.delete ha⟩
  · exact h
  · exact ⟨h, fun _ _ ha => h.write (.inr (.inr (.inl ⟨rfl, rfl⟩))) ha⟩
  · exact h

theorem itemSteps_wellFormed (h : WellFormed cfg s) :
    Safe (device o) (.always (WellFormed cfg)) itemSteps s fun c t =>
      WellFormed cfg t ∧ c ≤ cfg.maxReboot := by
  unfold itemSteps addressStep keyStep
  rw [safe_bind]
  apply Safe.imp (readOrAdd_wellFormed (Q := fun _ => True) h fun _ _ =>
    ⟨trivial, .inl ⟨rfl, rfl⟩⟩)
  intro _ t₁ h₁
  rw [safe_bind]
  apply Safe.imp (readOrAdd_wellFormed (Q := fun _ => True) h₁.1 fun _ _ =>
    ⟨trivial, .inr (.inl ⟨rfl, rfl⟩)⟩)
  intro _ t₂ h₂
  rw [safe_bind]
  apply (counterStep_wellFormed h₂.1).imp
  intro c t₃ h₃
  rw [safe_bind]
  apply (stringStep_wellFormed c h₃.1).imp
  intro _ t₄ h₄
  rw [safe_pure]
  exact ⟨h₄, h₃.2⟩

theorem main_wellFormed (h : WellFormed cfg s) :
    Safe (device o) (.always (WellFormed cfg)) (main cfg) s fun _ t => WellFormed cfg t := by
  have hprepare : Safe (device o) (.always (WellFormed cfg)) prepare s fun c t =>
      WellFormed cfg t := by
    rw [safe_prepare_iff]
    exact ⟨h, fun _ => h, fun _ => ⟨h, h, (itemSteps_wellFormed h).imp fun _ _ ht => ht.1⟩⟩
  unfold main
  rw [safe_bind]
  apply hprepare.imp
  intro r t ht
  cases r with
  | none => exact safe_pure.mpr ht
  | some c =>
    apply safe_countdown ht (fun _ => ht) ht
    intro _ _ ha
    exact ht.write (.inr (.inr (.inr ⟨rfl, next cfg c, next_le cfg c, rfl⟩))) ha

/-- **The items are well formed** in every state of every history of complete and cut boots, from
any store whose items are, whichever calls fail. -/
theorem items_known (h : WellFormed cfg s) (ht : Visited (device o) id (main cfg) s t) :
    WellFormed cfg t :=
  ht.invariant h fun _ hs => main_wellFormed hs

/-- The first boots on an empty store, the third of them to its end. -/
theorem items_known_first : ∃ s t u,
    History (device allSucceed) id (main twoReboots) (fun _ => none)
        [(fun _ => none, some .rebooted), (s, some .rebooted)] t ∧
      Boot (device allSucceed) id (main twoReboots) t (some .returned) u ∧
      WellFormed twoReboots u := by
  obtain ⟨s, t, u, hfirst, hsecond, -, hreturned⟩ := first_boots
  have h := ((History.start _).boot hfirst).boot hsecond
  refine ⟨s, t, u, h, hreturned, ?_⟩
  cases hreturned with
  | finished hs => exact items_known (wellFormed_empty _) ⟨_, _, _, h, hs⟩

end NrfProjects.Nvs
