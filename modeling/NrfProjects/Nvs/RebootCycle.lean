import NrfProjects.Nvs.Rules

/-! # The reboot cycle under power loss

With no failing call, a boot moves the persisted counter one place round the cycle
`0, 1, …, MAX, 0`, or not at all if power is cut too early, and the string item is there exactly
while the counter is below 10. -/

namespace NrfProjects.Nvs
set_option autoImplicit false
open Interaction Encoding

variable (cfg : Config)

def CounterMove (c c' : Option ℕ) : Prop :=
  c' = c ∨ c = none ∧ c' = some 0 ∨ ∃ v, c = some v ∧
    (v < cfg.maxReboot ∧ c' = some (v + 1) ∨ cfg.maxReboot ≤ v ∧ c' = some 0)

theorem counterMove_next (v : ℕ) : CounterMove cfg (some v) (some (next cfg v)) := by
  refine .inr (.inr ⟨v, rfl, ?_⟩)
  unfold next
  by_cases h : v < cfg.maxReboot
  · rw [if_pos h]
    exact .inl ⟨h, rfl⟩
  · rw [if_neg h]
    exact .inr ⟨Nat.le_of_not_lt h, rfl⟩

/-! ## One boot, up to the countdown -/

/-- How far a boot from `s` has come before the countdown: `t` has the counter it found or has
created it, and the string item has been deleted or created only as the counter says. -/
structure Prepared (s t : Store) : Prop where
  word : CounterWord t
  count : counter t = counter s ∨ counter s = none ∧ counter t = some 0
  string : t STRING_ID = s STRING_ID ∨ value s = 0 ∧ StringPresent t ∨
    counter s = some 10 ∧ ¬ StringPresent t

/-- The points of a boot from `s`: each call made there moves the counter as allowed. -/
def bootWatch (s : Store) : Watch Call Store where
  atLoop t := Prepared s t
  atCall c t := Prepared s t ∧
    ∀ r u, (device allSucceed).answer c t r u → CounterMove cfg (counter t) (counter u)

variable {cfg} {s t : Store}

theorem Prepared.refl (h : CounterWord s) : Prepared s s := ⟨h, .inl rfl, .inl rfl⟩

theorem Prepared.congr {u : Store} (h : Prepared s t) (hc : u RBT_CNT_ID = t RBT_CNT_ID)
    (hs : u STRING_ID = t STRING_ID) : Prepared s u where
  word := fun d hd => h.word d (hc ▸ hd)
  count := by rw [counter_congr hc]; exact h.count
  string := by simpa only [StringPresent, hs] using h.string

theorem atCall_of_same {ρ : Type} {c : Call ρ} (h : Prepared s t)
    (hc : ∀ r u, (device allSucceed).answer c t r u → u RBT_CNT_ID = t RBT_CNT_ID) :
    (bootWatch cfg s).atCall c t :=
  ⟨h, fun r u hu => .inl (counter_congr (hc r u hu))⟩

theorem atCall_read (h : Prepared s t) (id len : ℕ) :
    (bootWatch cfg s).atCall (.nvsRead id len) t :=
  atCall_of_same h fun _ _ hu => by rw [hu.1]

theorem atCall_write (h : Prepared s t) {id : ℕ} (hid : id ≠ RBT_CNT_ID) (data : List UInt8) :
    (bootWatch cfg s).atCall (.nvsWrite id data) t :=
  atCall_of_same h fun _ _ hu => answer_nvsWrite_other hu hid.symm

/-- An item that is neither the counter nor the string. -/
theorem other_spec (h : Prepared s t) {id len : ℕ} {added : List UInt8 → List UInt8}
    (hc : id ≠ RBT_CNT_ID) (hs : id ≠ STRING_ID) :
    Safe (device allSucceed) (bootWatch cfg s) (readOrAdd id len added) t fun _ u =>
      u RBT_CNT_ID = t RBT_CNT_ID ∧ u STRING_ID = t STRING_ID := by
  refine (safe_readOrAdd_other (atCall_read h id len) (atCall_write h hc)).imp fun _ u hu => ?_
  exact ⟨hu _ hc.symm, hu _ hs.symm⟩

theorem counterStep_spec (hw : CounterWord s) (hc : t RBT_CNT_ID = s RBT_CNT_ID)
    (hs : t STRING_ID = s STRING_ID) :
    Safe (device allSucceed) (bootWatch cfg s) counterStep t fun c u =>
      c = value s ∧ counter u = some c ∧ CounterWord u ∧ u STRING_ID = s STRING_ID := by
  have ht : Prepared s t := (Prepared.refl hw).congr hc hs
  have hct : counter t = counter s := counter_congr hc
  unfold counterStep
  rw [safe_bind, safe_readOrAdd_iff]
  refine ⟨atCall_read ht _ _, ?_⟩
  rintro r ⟨-, ⟨-, rfl⟩ | ⟨hfail, -⟩⟩
  case inr => exact absurd hfail (by simp)
  have hload : loadCounter (readItem t RBT_CNT_ID 4).2 = value s := by
    rw [loadCounter_readItem ht.word, value_congr hc]
  by_cases hpos : 0 < (readItem t RBT_CNT_ID 4).1
  · -- the counter was there
    rw [if_pos hpos, safe_pure, hload]
    obtain ⟨d, hd⟩ := Option.isSome_iff_exists.mp ((readItem_pos 4).mp hpos)
    have hcs : counter s = some (ofLE d.bytes) := by rw [← hct]; simp [counter, hd]
    rw [hct, hcs, value_some hcs]
    exact ⟨rfl, rfl, ht.word, hs⟩
  · rw [if_neg hpos, hload]
    have hnone : t RBT_CNT_ID = none := by
      rw [readItem_pos, Option.not_isSome_iff_eq_none] at hpos
      exact hpos
    have hcs : counter s = none := by rw [← hct]; simp [counter, hnone]
    have hset := counter_setCounter t (v := 0) (by decide)
    rw [value_none hcs]
    refine ⟨⟨ht, ?_⟩, ?_⟩
    · rintro r u (⟨-, -, rfl⟩ | ⟨-, -, rfl⟩)
      · exact .inr (.inl ⟨hct.trans hcs, hset⟩)
      · exact .inl rfl
    · rintro r u (⟨-, -, rfl⟩ | ⟨hfail, -⟩)
      · rw [safe_pure]
        exact ⟨rfl, hset, setCounter_word t 0, (setCounter_string t 0).trans hs⟩
      · exact absurd hfail (by simp)

/-- The countdown is about to start from counter `c`. -/
structure Ready (s : Store) (c : ℕ) (u : Store) : Prop extends Prepared s u where
  loaded : c = value s
  counted : counter u = some c
  created : c = 0 → StringPresent u
  deleted : c = 10 → ¬ StringPresent u
  kept : c ≠ 0 → c ≠ 10 → u STRING_ID = s STRING_ID

/-- A boot that has loaded the counter has it on the flash, whether it found or created it. -/
theorem count_of_value (h : counter t = some (value s)) :
    counter t = counter s ∨ counter s = none ∧ counter t = some 0 := by
  cases hs : counter s with
  | none =>
    rw [value_none hs] at h
    exact .inr ⟨rfl, h⟩
  | some v =>
    rw [value_some hs] at h
    exact .inl h

/-- The string step has put `item` in the place of the string. -/
theorem Ready.update {c : ℕ} {item : Option Item} (hp : Prepared s t) (hc : c = value s)
    (ht : counter t = some c)
    (hitem : c = 0 ∧ item.isSome ∨ c = 10 ∧ counter s = some 10 ∧ item = none) :
    Ready s c (Function.update t STRING_ID item) := by
  have hrbt : Function.update t STRING_ID item RBT_CNT_ID = t RBT_CNT_ID :=
    Function.update_of_ne (by decide) _ _
  have hstring : StringPresent (Function.update t STRING_ID item) ↔ item.isSome := by
    rw [StringPresent, Function.update_self]
  have hgone : item = none → ¬ StringPresent (Function.update t STRING_ID item) := by
    intro hnone
    rw [hstring, hnone]
    simp
  refine
    { word := hp.word.congr hrbt
      count := by rw [counter_congr hrbt]; exact hp.count
      string := ?_
      loaded := hc
      counted := (counter_congr hrbt).trans ht
      created := fun h0 => ?_
      deleted := fun h10 => ?_
      kept := fun hn0 hn10 => ?_ }
  · rcases hitem with ⟨h0, hsome⟩ | ⟨-, hten, hnone⟩
    · exact .inr (.inl ⟨hc.symm.trans h0, hstring.mpr hsome⟩)
    · exact .inr (.inr ⟨hten, hgone hnone⟩)
  · rcases hitem with ⟨-, hsome⟩ | ⟨h10, -, -⟩
    · exact hstring.mpr hsome
    · omega
  · rcases hitem with ⟨h0, -⟩ | ⟨-, -, hnone⟩
    · omega
    · exact hgone hnone
  · rcases hitem with ⟨h0, -⟩ | ⟨h10, -, -⟩
    · exact absurd h0 hn0
    · exact absurd h10 hn10

theorem stringStep_spec {c : ℕ} (hc : c = value s) (ht : counter t = some c)
    (hw : CounterWord t) (hs : t STRING_ID = s STRING_ID) :
    Safe (device allSucceed) (bootWatch cfg s) (stringStep c) t fun _ u => Ready s c u := by
  have hp : Prepared s t := ⟨hw, count_of_value (hc ▸ ht), .inl hs⟩
  have hne : RBT_CNT_ID ≠ STRING_ID := by decide
  -- where the string is not touched
  have hkeep : (c = 0 → StringPresent t) → (c = 10 → ¬ StringPresent t) → Ready s c t :=
    fun h0 h10 =>
      { hp with
        loaded := hc
        counted := ht
        created := h0
        deleted := h10
        kept := fun _ _ => hs }
  rw [safe_stringStep_iff]
  refine ⟨atCall_read hp _ _, ?_⟩
  rintro r ⟨-, ⟨-, rfl⟩ | ⟨hfail, -⟩⟩
  case inr => exact absurd hfail (by simp)
  by_cases hpos : 0 < (readItem t STRING_ID 16).1
  · have hpresent : StringPresent t := (readItem_pos 16).mp hpos
    rw [if_pos hpos]
    by_cases h10 : c = 10
    · -- the string is deleted
      rw [if_pos h10]
      refine ⟨atCall_of_same hp fun r u hu => answer_nvsDelete_other hu hne, ?_⟩
      rintro r u (⟨-, -, rfl⟩ | ⟨hfail, -⟩)
      case inr => exact absurd hfail (by simp)
      have hten : counter s = some 10 := by
        apply counter_of_value
        · omega
        · decide
      exact Ready.update hp hc ht (.inr ⟨h10, hten, rfl⟩)
    · rw [if_neg h10]
      exact hkeep (fun _ => hpresent) fun h => absurd h h10
  · have habsent : ¬ StringPresent t := fun h => hpos ((readItem_pos 16).mpr h)
    rw [if_neg hpos]
    by_cases h0 : c = 0
    · -- the string is created
      rw [if_pos h0]
      refine ⟨atCall_write hp hne.symm _, ?_⟩
      rintro r u (⟨-, -, rfl⟩ | ⟨hfail, -⟩)
      case inr => exact absurd hfail (by simp)
      have hnew : (Item.ofData defaultString).isSome := by
        simp [Item.ofData, defaultString, cString]
      exact Ready.update hp hc ht (.inl ⟨h0, hnew⟩)
    · rw [if_neg h0]
      exact hkeep (fun h => absurd h h0) fun _ => habsent

theorem itemSteps_spec (hw : CounterWord s) :
    Safe (device allSucceed) (bootWatch cfg s) itemSteps s fun c u => Ready s c u := by
  have h0 : Prepared s s := .refl hw
  unfold itemSteps addressStep keyStep
  rw [safe_bind]
  refine (other_spec h0 (by decide) (by decide)).imp ?_
  rintro _ t₁ ⟨hc₁, hs₁⟩
  rw [safe_bind]
  refine (other_spec (h0.congr hc₁ hs₁) (by decide) (by decide)).imp ?_
  rintro _ t₂ ⟨hc₂, hs₂⟩
  rw [safe_bind]
  refine (counterStep_spec hw (hc₂.trans hc₁) (hs₂.trans hs₁)).imp ?_
  rintro c t₃ ⟨hc, hcount, hw₃, hs₃⟩
  rw [safe_bind]
  refine (stringStep_spec hc hcount hw₃ hs₃).imp ?_
  intro _ u hu
  rw [safe_pure]
  exact hu

theorem prepare_spec (cfg : Config) (hw : CounterWord s) :
    Safe (device allSucceed) (bootWatch cfg s) prepare s fun r u =>
      ∃ c, r = some c ∧ Ready s c u := by
  have hstart : ∀ {ρ : Type} {c : Call ρ},
      (∀ r u, (device allSucceed).answer c s r u → u = s) → (bootWatch cfg s).atCall c s :=
    fun hc => atCall_of_same (.refl hw) fun r u hu => by rw [hc r u hu]
  rw [safe_prepare_iff]
  refine ⟨hstart fun _ _ hu => hu.2, fun hfail => absurd hfail (by simp), fun _ => ?_⟩
  refine ⟨hstart fun _ _ hu => hu.2, hstart fun _ _ hu => hu.2, ?_⟩
  exact (itemSteps_spec hw).imp fun c u hu => ⟨c, rfl, hu⟩

/-! ## The countdown -/

theorem countdown_spec {c : ℕ} (h : Ready s c t) :
    Safe (device allSucceed) (bootWatch cfg s) (countdown cfg c) t fun _ u =>
      u = setCounter t (next cfg c) := by
  have hp := h.toPrepared
  have hset : counter (setCounter t (next cfg c)) = some (next cfg c) :=
    counter_setCounter t (next_lt cfg c)
  refine safe_countdown hp (fun n => atCall_of_same hp fun r u hu => by rw [hu]) ⟨hp, ?_⟩ ?_
  · rintro r u (⟨-, -, rfl⟩ | ⟨-, -, rfl⟩)
    · rw [setCounter] at hset
      rw [hset, h.counted]
      exact counterMove_next cfg c
    · exact .inl rfl
  · rintro r u (⟨-, -, rfl⟩ | ⟨hfail, -⟩)
    · rfl
    · exact absurd hfail (by simp)

/-- The boot from `s` has written the counter for the last time. -/
def Ended (cfg : Config) (s u : Store) : Prop :=
  ∃ c t, Ready s c t ∧ u = setCounter t (next cfg c)

theorem main_spec (hw : CounterWord s) :
    Safe (device allSucceed) (bootWatch cfg s) (main cfg) s fun _ u => Ended cfg s u := by
  unfold main
  rw [safe_bind]
  refine (prepare_spec cfg hw).imp ?_
  rintro _ t ⟨c, rfl, ht⟩
  exact (countdown_spec ht).imp fun _ _ hu => ⟨c, t, ht, hu⟩

theorem boot_point {q : Prog Call Exit} (hw : CounterWord s)
    (h : Steps (device allSucceed) (main cfg, s) (q, t)) : Prepared s t ∨ Ended cfg s t := by
  have hm := main_spec hw q t h
  cases q with
  | ret e => exact .inr hm
  | call c k => exact .inl hm.1
  | loop b body k => exact .inl hm

theorem Boot.finished_ended {e : Exit} (hw : CounterWord s)
    (h : Boot (device allSucceed) id (main cfg) s (some e) t) : Ended cfg s t := by
  cases h with
  | finished h => exact (main_spec hw).result h

theorem Boot.point {o : Option Exit} (hw : CounterWord s)
    (h : Boot (device allSucceed) id (main cfg) s o t) : Prepared s t ∨ Ended cfg s t := by
  cases h with
  | finished h => exact boot_point hw h
  | cut h => exact boot_point hw h

theorem Boot.word {o : Option Exit} (hw : CounterWord s)
    (h : Boot (device allSucceed) id (main cfg) s o t) : CounterWord t := by
  rcases Boot.point hw h with hp | ⟨c, u, -, rfl⟩
  · exact hp.word
  · exact setCounter_word u _

theorem History.word {l : List (Store × Option Exit)} (hw : CounterWord s)
    (h : History (device allSucceed) id (main cfg) s l t) : CounterWord t := by
  induction h with
  | start => exact hw
  | boot _ hb ih => exact Boot.word ih hb

/-! ## The counter over a whole history -/

def AtZero (s : Store) : Prop := value s = 0

/-- The boots of a history that ran to their end. -/
def completed (l : List (Store × Option Exit)) : ℕ := l.countP fun b => b.2.isSome

/-- How many completed boots it takes until a counter `v` is back at 0. -/
def toZero (cfg : Config) (v : ℕ) : ℕ :=
  if v = 0 then 0 else if v ≤ cfg.maxReboot then cfg.maxReboot + 1 - v else 1

theorem toZero_le (cfg : Config) (v : ℕ) : toZero cfg v ≤ cfg.maxReboot := by
  have := cfg.one_le_maxReboot
  unfold toZero
  split_ifs <;> omega

theorem toZero_next (cfg : Config) {v : ℕ} (hv : v ≠ 0) : toZero cfg (next cfg v) < toZero cfg v := by
  unfold next toZero
  split_ifs <;> omega

theorem Prepared.value_eq (h : Prepared s t) : value t = value s := by
  rcases h.count with heq | ⟨hs, ht⟩
  · rw [value, heq, value]
  · rw [value_none hs, value_some ht]

theorem Ended.value_eq (h : Ended cfg s t) : value t = next cfg (value s) := by
  obtain ⟨c, u, hready, rfl⟩ := h
  rw [value_setCounter u (next_lt cfg c), hready.loaded]

/-- Until some boot starts with the counter 0 or absent, each completed boot brings that closer. -/
theorem History.first_zero {l : List (Store × Option Exit)} (hw : CounterWord s)
    (h : History (device allSucceed) id (main cfg) s l t) :
    (∃ l₁ b l₂, l = l₁ ++ b :: l₂ ∧ completed l₁ ≤ cfg.maxReboot ∧ AtZero b.1) ∨
      completed l + toZero cfg (value t) ≤ cfg.maxReboot := by
  induction h with
  | start => exact .inr (by simpa [completed] using toZero_le cfg _)
  | @boot u t l o hl hb ih =>
    rcases ih with ⟨l₁, b, l₂, rfl, hle, hzero⟩ | hbound
    · exact .inl ⟨l₁, b, l₂ ++ [(u, o)], by simp, hle, hzero⟩
    by_cases hzero : AtZero u
    · exact .inl ⟨l, (u, o), [], rfl, by omega, hzero⟩
    right
    have hu := History.word hw hl
    have hsnoc : completed (l ++ [(u, o)]) = completed l + if o.isSome then 1 else 0 := by
      simp [completed, List.countP_append, List.countP_singleton]
    rw [hsnoc]
    cases o with
    | some e =>
      have hlt := toZero_next cfg hzero
      rw [(Boot.finished_ended hu hb).value_eq]
      simp only [Option.isSome_some, if_true]
      omega
    | none =>
      have hle : toZero cfg (value t) ≤ toZero cfg (value u) := by
        rcases Boot.point hu hb with hp | he
        · rw [hp.value_eq]
        · rw [he.value_eq]
          exact (toZero_next cfg hzero).le
      simp only [Option.isSome_none, Bool.false_eq_true, if_false]
      omega

/-! ## Around the cycle -/

/-- What holds between any two calls once the counter has been round to 0. -/
structure Cycle (cfg : Config) (s : Store) : Prop where
  word : CounterWord s
  le_max : ∀ v ∈ counter s, v ≤ cfg.maxReboot
  present : ∀ v ∈ counter s, 0 < v → v < 10 → StringPresent s
  absent : ∀ v ∈ counter s, 10 < v → ¬ StringPresent s

theorem Cycle.of_atZero (hw : CounterWord s) (hz : AtZero s) : Cycle cfg s := by
  have hzero : ∀ v ∈ counter s, v = 0 := by
    intro v hv
    rw [AtZero, value_some hv] at hz
    exact hz
  refine ⟨hw, fun v hv => ?_, fun v hv h => ?_, fun v hv h => ?_⟩
  · rw [hzero v hv]
    exact Nat.zero_le _
  · exact absurd (hzero v hv) (by omega)
  · exact absurd (hzero v hv) (by omega)

theorem Cycle.prepared (hs : Cycle cfg s) (h : Prepared s t) : Cycle cfg t := by
  rcases h.count with heq | ⟨-, ht⟩
  · refine ⟨h.word, heq ▸ hs.le_max, fun v hv h0 h10 => ?_, fun v hv h10 => ?_⟩
    · rw [heq] at hv
      rcases h.string with hstr | ⟨-, hpres⟩ | ⟨hten, -⟩
      · have := hs.present v hv h0 h10
        rwa [StringPresent, hstr]
      · exact hpres
      · rw [hv, Option.some.injEq] at hten
        omega
    · rw [heq] at hv
      rcases h.string with hstr | ⟨hzero, -⟩ | ⟨-, habs⟩
      · have := hs.absent v hv h10
        rwa [StringPresent, hstr]
      · rw [value_some hv] at hzero
        omega
      · exact habs
  · exact .of_atZero h.word (value_some ht)

/-- The counter a boot on the cycle loads, and the string as the countdown loop is entered. -/
theorem Cycle.ready {c : ℕ} (hs : Cycle cfg s) (h : Ready s c t) :
    c ≤ cfg.maxReboot ∧ (StringPresent t ↔ c < 10) := by
  have ht := hs.prepared h.toPrepared
  refine ⟨ht.le_max c h.counted, fun hp => ?_, fun hlt => ?_⟩
  · by_contra hge
    by_cases h10 : c = 10
    · exact h.deleted h10 hp
    · exact ht.absent c h.counted (by omega) hp
  · by_cases h0 : c = 0
    · exact h.created h0
    · exact ht.present c h.counted (by omega) hlt

theorem Cycle.ended (hs : Cycle cfg s) (h : Ended cfg s t) : Cycle cfg t := by
  obtain ⟨c, u, hready, rfl⟩ := h
  obtain ⟨-, hstring⟩ := hs.ready hready
  have hcount := counter_setCounter u (next_lt cfg c)
  have hpres : StringPresent (setCounter u (next cfg c)) ↔ StringPresent u := by
    rw [StringPresent, setCounter_string, StringPresent]
  have hnext : ∀ v ∈ counter (setCounter u (next cfg c)), v ≤ cfg.maxReboot ∧ (0 < v → v = c + 1) := by
    intro v hv
    rw [hcount, Option.mem_some_iff] at hv
    subst hv
    unfold next
    split <;> omega
  refine ⟨setCounter_word u _, fun v hv => (hnext v hv).1, fun v hv h0 h10 => ?_,
    fun v hv h10 => ?_⟩
  · rw [hpres, hstring]
    have := (hnext v hv).2 h0
    omega
  · rw [hpres, hstring]
    have := (hnext v hv).2 (by omega)
    omega

theorem Cycle.point (hs : Cycle cfg s) {q : Prog Call Exit}
    (h : Steps (device allSucceed) (main cfg, s) (q, t)) : Cycle cfg t := by
  rcases boot_point hs.word h with hp | he
  · exact hs.prepared hp
  · exact hs.ended he

theorem Cycle.boot {o : Option Exit} (hs : Cycle cfg s)
    (h : Boot (device allSucceed) id (main cfg) s o t) : Cycle cfg t := by
  cases h with
  | finished h => exact hs.point h
  | cut h => exact hs.point h

theorem History.cycle {l : List (Store × Option Exit)} (hw : CounterWord s)
    (h : History (device allSucceed) id (main cfg) s l t) (hz : ∃ b ∈ l, AtZero b.1) :
    Cycle cfg t := by
  induction h with
  | start => simp at hz
  | @boot u t l o hl hb ih =>
    obtain ⟨b, hb', hzero⟩ := hz
    rcases List.mem_append.mp hb' with hmem | hmem
    · exact (ih ⟨b, hmem, hzero⟩).boot hb
    · rw [List.mem_singleton] at hmem
      subst hmem
      exact (Cycle.of_atZero (History.word hw hl) hzero).boot hb

theorem counter_step (hw : CounterWord s) {q : Prog Call Exit} {x : Prog Call Exit × Store}
    (h : Steps (device allSucceed) (main cfg, s) (q, t))
    (hx : Step (device allSucceed) (q, t) x) : CounterMove cfg (counter t) (counter x.2) := by
  have hm := main_spec hw q t h
  cases hx with
  | call ha => exact hm.2 _ _ ha
  | enter => exact .inl rfl
  | move _ hd => exact hd.elim

/-- A boot that starts at `t` after the boots `l`. -/
structure OnCycle (cfg : Config) (l : List (Store × Option Exit)) (t : Store) : Prop where
  moves : ∀ q u x, Steps (device allSucceed) (main cfg, t) (q, u) →
    Step (device allSucceed) (q, u) x → CounterMove cfg (counter u) (counter x.2)
  returns : cfg.maxReboot + 1 ≤ completed l →
    ∃ l₁ b l₂, l = l₁ ++ b :: l₂ ∧ completed l₁ ≤ cfg.maxReboot ∧ AtZero b.1
  bounded : AtZero t ∨ (∃ b ∈ l, AtZero b.1) →
    ∀ q u, Steps (device allSucceed) (main cfg, t) (q, u) → ∀ v ∈ counter u, v ≤ cfg.maxReboot
  string : AtZero t ∨ (∃ b ∈ l, AtZero b.1) →
    ∀ c u, Steps (device allSucceed) (prepare, t) (.ret (some c), u) → (StringPresent u ↔ c < 10)

/-- **The reboot cycle**, after any history of complete and cut boots from any store. -/
theorem reboot_cycle {l : List (Store × Option Exit)} (hw : CounterWord s)
    (h : History (device allSucceed) id (main cfg) s l t) : OnCycle cfg l t := by
  have ht : CounterWord t := History.word hw h
  have hcycle : AtZero t ∨ (∃ b ∈ l, AtZero b.1) → Cycle cfg t := by
    intro hzero
    rcases hzero with hz | hz
    · exact .of_atZero ht hz
    · exact History.cycle hw h hz
  refine ⟨fun q u x hu hx => counter_step ht hu hx, fun hmany => ?_,
    fun hzero q u hu => ((hcycle hzero).point hu).le_max, fun hzero c u hu => ?_⟩
  · rcases History.first_zero hw h with hfirst | hle
    · exact hfirst
    · omega
  · obtain ⟨c', heq, hready⟩ := (prepare_spec cfg ht).result hu
    rw [Option.some.injEq] at heq
    exact heq ▸ ((hcycle hzero).ready hready).2

/-- Two boots that reboot, one that is cut, and one that returns. -/
theorem reboot_cycle_first : ∃ s t u, ∃ l : List (Store × Option Exit),
    l = [(fun _ => none, some .rebooted), (s, some .rebooted), (t, none), (t, some .returned)] ∧
      History (device allSucceed) id (main twoReboots) (fun _ => none) l u ∧
      OnCycle twoReboots l u := by
  obtain ⟨s, t, u, hfirst, hsecond, hcut, hreturned⟩ := first_boots
  have h := ((((History.start _).boot hfirst).boot hsecond).boot hcut).boot hreturned
  exact ⟨s, t, u, _, rfl, h, reboot_cycle (fun _ hd => absurd hd (by simp)) h⟩

end NrfProjects.Nvs
