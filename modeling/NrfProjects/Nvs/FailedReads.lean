import NrfProjects.Nvs.Rules

/-! # What a failed read costs

The set-up steps take every failed read for an item that was not found, and write its default. A
read of the string that fails is harmless only once the counter has left 0. -/

namespace NrfProjects.Nvs
set_option autoImplicit false
open Interaction Encoding

/-- Exactly the reads of the items in `fails` fail, and no write or delete. -/
def readsFail (fails : ℕ → Bool) : Outcomes where
  setup _ := True
  read id _ ok := ok = !fails id
  write _ _ ok := ok = true
  delete _ ok := ok = true

section
variable {fails : ℕ → Bool} {id : ℕ}

@[simp] theorem readsFail_read {d : Option Item} {ok : Bool} :
    (readsFail fails).read id d ok ↔ ok = !fails id := Iff.rfl

@[simp] theorem readsFail_write {data : List UInt8} {ok : Bool} :
    (readsFail fails).write id data ok ↔ ok = true := Iff.rfl

@[simp] theorem readsFail_delete {ok : Bool} : (readsFail fails).delete id ok ↔ ok = true := Iff.rfl

end

/-- The counter that was stored in `s` is kept if its read failed. -/
def CounterKept (fails : ℕ → Bool) (s t : Store) : Prop :=
  fails RBT_CNT_ID → ∀ v ∈ counter s, counter t = some v

/-- An item is written only where it is absent. -/
def keepWatch (fails : ℕ → Bool) (s : Store) : Watch Call Store where
  atLoop t := CounterKept fails s t
  atCall
    | .nvsWrite id _, t => CounterKept fails s t ∧ t id = none
    | _, t => CounterKept fails s t

/-- No failed read of the set-up costs an item that was stored in `s`. -/
def KeepsItems (fails : ℕ → Bool) (s : Store) : Prop :=
  Safe (device (readsFail fails)) (keepWatch fails s) prepare s fun _ t => CounterKept fails s t

/-- The store once an absent item has been added. -/
def ensure (t : Store) (id : ℕ) (data : List UInt8) : Store :=
  if t id = none then Function.update t id (Item.ofData data) else t

variable {fails : ℕ → Bool} {s t : Store}

theorem ensure_other {id id' : ℕ} (data : List UInt8) (hne : id' ≠ id) :
    ensure t id data id' = t id' := by
  unfold ensure
  split
  · exact Function.update_of_ne hne _ _
  · rfl

theorem CounterKept.congr {u : Store} (h : CounterKept fails s t)
    (hu : u RBT_CNT_ID = t RBT_CNT_ID) : CounterKept fails s u := by
  unfold CounterKept
  rw [counter_congr hu]
  exact h

theorem CounterKept.of_absent (h : fails RBT_CNT_ID → s RBT_CNT_ID = none) :
    CounterKept fails s t := by
  intro hfail v hv
  rw [counter, h hfail] at hv
  exact absurd hv (by simp)

/-- The write answers, and the item is there. -/
theorem forall_write_iff {id : ℕ} {data : List UInt8} {P : Store → Prop} :
    (∀ (r : ℤ) u, (device (readsFail fails)).answer (.nvsWrite id data) t r u → P u) ↔
      P (Function.update t id (Item.ofData data)) := by
  constructor
  · intro h
    exact h 0 _ (.inl ⟨rfl, le_rfl, rfl⟩)
  · rintro h r u (⟨-, -, rfl⟩ | ⟨hfail, -⟩)
    · exact h
    · exact absurd hfail (by simp)

theorem keeps_readOrAdd_iff {id len : ℕ} {added : List UInt8 → List UInt8}
    {Q : List UInt8 → Store → Prop} (hk : CounterKept fails s t) :
    Safe (device (readsFail fails)) (keepWatch fails s) (readOrAdd id len added) t Q ↔
      (fails id → t id = none) ∧ Q (readItem t id len).2 (ensure t id (added [])) := by
  have hneg : ¬ 0 < ENOENT.code := ENOENT.not_pos
  rw [safe_readOrAdd_iff]
  cases hf : fails id with
  | true =>
    constructor
    · rintro ⟨-, h⟩
      have hr := h (Errno.ioError.code, [])
        ⟨rfl, .inr ⟨by simp [hf], Errno.ioError.neg, rfl⟩⟩
      rw [if_neg Errno.ioError.not_pos] at hr
      obtain ⟨⟨-, hnone⟩, hadd⟩ := hr
      rw [forall_write_iff (P := Q [])] at hadd
      rw [readItem_absent len hnone, ensure, if_pos hnone]
      exact ⟨fun _ => hnone, hadd⟩
    · rintro ⟨hnone, hQ⟩
      have hnone := hnone rfl
      rw [readItem_absent len hnone, ensure, if_pos hnone] at hQ
      refine ⟨hk, ?_⟩
      rintro r ⟨-, ⟨hok, -⟩ | ⟨-, hr, hdata⟩⟩
      · simp [hf] at hok
      · rw [if_neg (by omega), hdata, forall_write_iff (P := Q [])]
        exact ⟨⟨hk, hnone⟩, hQ⟩
  | false =>
    have hread : ∀ r, (device (readsFail fails)).answer (.nvsRead id len) t r t ↔
        r = readItem t id len := by
      simp [hf]
    simp only [hread, forall_eq, Bool.false_eq_true, false_implies, true_and]
    cases hd : t id with
    | none =>
      rw [readItem_absent len hd, if_neg hneg, ensure, if_pos hd, forall_write_iff (P := Q [])]
      exact ⟨fun h => h.2.2, fun h => ⟨hk, ⟨hk, hd⟩, h⟩⟩
    | some d =>
      rw [readItem_present len hd, if_pos d.length_pos, ensure, if_neg (by simp [hd])]
      exact ⟨fun h => h.2, fun h => ⟨hk, h⟩⟩

theorem keeps_stringStep_iff {c : ℕ} (hk : CounterKept fails s t) :
    Safe (device (readsFail fails)) (keepWatch fails s) (stringStep c) t
        (fun _ u => CounterKept fails s u) ↔
      (fails STRING_ID → t STRING_ID = none ∨ c ≠ 0) := by
  have hne : RBT_CNT_ID ≠ STRING_ID := by decide
  rw [safe_stringStep_iff]
  constructor
  · rintro ⟨-, h⟩ hfail
    by_cases h0 : c = 0
    · have hr := h (Errno.ioError.code, []) ⟨rfl, .inr ⟨by simp [hfail], Errno.ioError.neg, rfl⟩⟩
      rw [if_neg Errno.ioError.not_pos, if_pos h0] at hr
      exact .inl hr.1.2
    · exact .inr h0
  · intro h
    refine ⟨hk, fun r hr => ?_⟩
    by_cases hpos : 0 < r.1
    · rw [if_pos hpos]
      by_cases h10 : c = 10
      · rw [if_pos h10]
        exact ⟨hk, fun _ _ hu => hk.congr (answer_nvsDelete_other hu hne)⟩
      · rw [if_neg h10]
        exact hk
    · rw [if_neg hpos]
      by_cases h0 : c = 0
      · have hnone : t STRING_ID = none := by
          rcases hr.2 with ⟨-, rfl⟩ | ⟨hfail, -⟩
          · rwa [readItem_pos, Option.not_isSome_iff_eq_none] at hpos
          · exact (h (by simpa using hfail)).resolve_right (not_not_intro h0)
        rw [if_pos h0]
        exact ⟨⟨hk, hnone⟩, fun _ _ hu => hk.congr (answer_nvsWrite_other hu hne)⟩
      · rw [if_neg h0]
        exact hk

/-- The counter that a boot from `s` has in RAM once its read has succeeded. -/
def stored (s : Store) : ℕ := loadCounter (readItem s RBT_CNT_ID 4).2

theorem keeps_itemSteps_iff :
    Safe (device (readsFail fails)) (keepWatch fails s) itemSteps s
        (fun _ u => CounterKept fails s u) ↔
      (fails ADDRESS_ID → s ADDRESS_ID = none) ∧ (fails KEY_ID → s KEY_ID = none) ∧
        (fails RBT_CNT_ID → s RBT_CNT_ID = none) ∧
          (fails STRING_ID → s STRING_ID = none ∨ stored s ≠ 0) := by
  have hk : CounterKept fails s s := fun _ v hv => hv
  let t₁ := ensure s ADDRESS_ID defaultAddress
  let t₂ := ensure t₁ KEY_ID defaultKey
  have hkey : t₁ KEY_ID = s KEY_ID := ensure_other _ (by decide)
  have hrbt₁ : t₁ RBT_CNT_ID = s RBT_CNT_ID := ensure_other _ (by decide)
  have hrbt₂ : t₂ RBT_CNT_ID = s RBT_CNT_ID := (ensure_other _ (by decide)).trans hrbt₁
  have hstring : ensure t₂ RBT_CNT_ID (toLE 4 (loadCounter [])) STRING_ID = s STRING_ID :=
    (ensure_other _ (by decide)).trans ((ensure_other _ (by decide)).trans
      (ensure_other _ (by decide)))
  have hread : readItem t₂ RBT_CNT_ID 4 = readItem s RBT_CNT_ID 4 := by
    simp only [readItem, hrbt₂]
  unfold itemSteps
  rw [safe_bind, addressStep, keeps_readOrAdd_iff hk]
  refine and_congr_right fun _ => ?_
  rw [safe_bind, keyStep, keeps_readOrAdd_iff (hk.congr hrbt₁), hkey]
  refine and_congr_right fun _ => ?_
  rw [safe_bind, counterStep, safe_bind, keeps_readOrAdd_iff (hk.congr hrbt₂), hrbt₂]
  refine and_congr_right fun habsent => ?_
  simp only [safe_pure, safe_bind]
  rw [keeps_stringStep_iff (CounterKept.of_absent habsent), hread, hstring]
  rfl

/-- **Failed reads.** No boot's set-up costs a stored item if and only if no read of a stored
address, key or counter fails, and none of a stored string while the stored counter is 0. -/
theorem keeps_items_iff (fails : ℕ → Bool) (s : Store) :
    KeepsItems fails s ↔
      (fails ADDRESS_ID → s ADDRESS_ID = none) ∧ (fails KEY_ID → s KEY_ID = none) ∧
        (fails RBT_CNT_ID → s RBT_CNT_ID = none) ∧
          (fails STRING_ID → s STRING_ID = none ∨ stored s ≠ 0) := by
  have hk : CounterKept fails s s := fun _ v hv => hv
  unfold KeepsItems
  rw [safe_prepare_iff]
  constructor
  · rintro ⟨-, -, h⟩
    exact keeps_itemSteps_iff.mp (h trivial).2.2
  · intro h
    exact ⟨hk, fun _ => hk, fun _ => ⟨hk, hk, keeps_itemSteps_iff.mpr h⟩⟩

/-- A read error on a stored counter of 5 sets it back to 0. -/
theorem counter_overwritten :
    ¬ KeepsItems (fun id => id == RBT_CNT_ID) (setCounter (fun _ => none) 5) := by
  intro h
  have hfollows : Script.Follows (script (fun id => id == RBT_CNT_ID) fun _ => false)
      (device (readsFail fun id => id == RBT_CNT_ID)) :=
    script_follows trivial (fun _ _ => rfl) (fun _ _ => rfl) fun _ => rfl
  have hrun := Steps.of_replay hfollows 20 (p := prepare) (s := setCounter (fun _ => none) 5)
    (q := .ret (some 0)) (Prod.ext (by rfl) rfl)
  have hkept := h.result hrun rfl 5 (by rfl)
  exact absurd hkept (by decide)

end NrfProjects.Nvs
