import NrfProjects.ButtonController.Main
import NrfProjects.Interaction.Safety

/-! # What the LED shows

A sample is at most one round old, so the LED shows a level that the button has held for longer. It
need not show one that was held for no longer than that. -/

namespace NrfProjects.ButtonController
set_option autoImplicit false
open Interaction

variable {board : Board} {s t : System} {time w k : ℕ} {val : Bool}

/-- The button has held its level for more than `w`, and the LED does not show it. -/
def Missed (w : ℕ) (s : System) : Prop := s.changedAt + w < s.now ∧ s.lit ≠ s.pressed

/-- Long enough for the calls of the set-up, and for those from one read to the moment at which the
LED shows the next. -/
structure Enough (board : Board) (w : ℕ) : Prop where
  setUp : 6 * board.busy ≤ w
  round : SLEEP_TIME_MS * MS + board.late + 5 * board.busy ≤ w

/-- `val` is what the button was at `time`. -/
structure Sample (time : ℕ) (val : Bool) (s : System) : Prop where
  le : time ≤ s.now
  level : s.changedAt < time → val = s.pressed

/-- A sample not too old. -/
theorem Sample.not_missed (h : Sample time s.lit s) (hnow : s.now ≤ time + w) : ¬ Missed w s := by
  intro hmissed
  obtain ⟨hheld, hne⟩ := hmissed
  exact hne (h.level (by omega))

/-- The next call is still to come. -/
structure Timed (board : Board) (s : System) : Prop where
  changed : s.changedAt ≤ s.now
  past : s.calledAt ≤ s.now
  soon : s.now ≤ s.calledAt + longest board s

/-! ## The points of a round -/

/-- `main` is setting the pins up, and has made `k` calls for it. -/
structure Starting (board : Board) (k : ℕ) (s : System) : Prop extends Timed board s where
  awake : s.asleep = none
  early : s.calledAt ≤ k * board.busy
  lit : 3 ≤ k → s.lit = true

/-- `main` is about to read the button, and the LED shows a sample from `time`. -/
structure Due (board : Board) (w time : ℕ) (s : System) : Prop extends Timed board s where
  awake : s.asleep = none
  shown : Sample time s.lit s
  due : s.calledAt + 2 * board.busy + (if s.lit then 0 else board.busy) ≤ time + w

/-- `main` has just read `val`, and makes `k` calls before it shows it. -/
structure HasRead (board : Board) (w : ℕ) (val : Bool) (k : ℕ) (s : System) : Prop
    extends Timed board s where
  awake : s.asleep = none
  shown : ∃ time, Sample time s.lit s ∧ s.calledAt + (k + 1) * board.busy ≤ time + w
  read : ∃ time, Sample time val s ∧
    s.calledAt + k * board.busy ≤ time + if val then board.busy else 0

/-- The LED shows what `main` has just read. -/
structure Shown (board : Board) (time : ℕ) (s : System) : Prop extends Timed board s where
  awake : s.asleep = none
  shown : Sample time s.lit s
  early : s.calledAt ≤ time + board.busy + if s.lit then board.busy else 0

structure Sleeping (board : Board) (time : ℕ) (s : System) : Prop extends Timed board s where
  asleep : s.asleep = some SLEEP_TIME_MS
  shown : Sample time s.lit s
  early : s.calledAt ≤ time + 2 * board.busy + if s.lit then board.busy else 0

theorem longest_awake (h : s.asleep = none) : longest board s = board.busy := by
  unfold longest
  rw [h]

theorem longest_asleep {ms : ℕ} (h : s.asleep = some ms) :
    longest board s = ms * MS + board.late := by
  unfold longest
  rw [h]

theorem Timed.toggle (h : Timed board s) : Timed board s.toggle := ⟨Nat.le_refl _, h.past, h.soon⟩

theorem Timed.tick (h : Timed board s) (hlt : s.now < s.calledAt + longest board s) :
    Timed board (s.pass 1) :=
  ⟨Nat.le_succ_of_le h.changed, Nat.le_succ_of_le h.past, hlt⟩

theorem Sample.toggle (h : Sample time val s) : Sample time val s.toggle :=
  ⟨h.le, fun hlt => absurd h.le (Nat.not_le.mpr hlt)⟩

theorem Sample.tick (h : Sample time val s) : Sample time val (s.pass 1) :=
  ⟨Nat.le_succ_of_le h.le, h.level⟩

/-! ## The moves of the board -/

theorem starting_stable : (device board).Stable (Starting board k) := by
  intro s t hm hs
  cases hm with
  | toggle => exact ⟨hs.toTimed.toggle, hs.awake, hs.early, hs.lit⟩
  | tick hlt => exact ⟨hs.toTimed.tick hlt, hs.awake, hs.early, hs.lit⟩

theorem due_stable : (device board).Stable (Due board w time) := by
  intro s t hm hs
  cases hm with
  | toggle => exact ⟨hs.toTimed.toggle, hs.awake, hs.shown.toggle, hs.due⟩
  | tick hlt => exact ⟨hs.toTimed.tick hlt, hs.awake, hs.shown.tick, hs.due⟩

theorem hasRead_stable : (device board).Stable (HasRead board w val k) := by
  intro s t hm hs
  obtain ⟨shown, hshown, hdue⟩ := hs.shown
  obtain ⟨read, hread, hrecent⟩ := hs.read
  cases hm with
  | toggle =>
    exact ⟨hs.toTimed.toggle, hs.awake, ⟨shown, hshown.toggle, hdue⟩, read, hread.toggle, hrecent⟩
  | tick hlt =>
    exact ⟨hs.toTimed.tick hlt, hs.awake, ⟨shown, hshown.tick, hdue⟩, read, hread.tick, hrecent⟩

theorem shown_stable : (device board).Stable (Shown board time) := by
  intro s t hm hs
  cases hm with
  | toggle => exact ⟨hs.toTimed.toggle, hs.awake, hs.shown.toggle, hs.early⟩
  | tick hlt => exact ⟨hs.toTimed.tick hlt, hs.awake, hs.shown.tick, hs.early⟩

theorem sleeping_stable : (device board).Stable (Sleeping board time) := by
  intro s t hm hs
  cases hm with
  | toggle => exact ⟨hs.toTimed.toggle, hs.asleep, hs.shown.toggle, hs.early⟩
  | tick hlt => exact ⟨hs.toTimed.tick hlt, hs.asleep, hs.shown.tick, hs.early⟩

/-! ## Nothing is missed on the way -/

theorem Starting.not_missed (h : Starting board k s) (hw : Enough board w) (hk : k < 6) :
    ¬ Missed w s := by
  intro hmissed
  have hheld := hmissed.1
  have hsoon := h.soon
  rw [longest_awake h.awake] at hsoon
  have hearly := h.early
  have hcalls := Nat.mul_le_mul_right board.busy (Nat.succ_le_of_lt hk)
  rw [Nat.succ_mul] at hcalls
  have hsetUp := hw.setUp
  omega

theorem Due.not_missed (h : Due board w time s) : ¬ Missed w s := by
  have hsoon := h.soon
  rw [longest_awake h.awake] at hsoon
  have hdue := h.due
  exact h.shown.not_missed (by omega)

theorem HasRead.not_missed (h : HasRead board w val k s) : ¬ Missed w s := by
  have hsoon := h.soon
  rw [longest_awake h.awake] at hsoon
  obtain ⟨time, hshown, hdue⟩ := h.shown
  rw [Nat.succ_mul] at hdue
  exact hshown.not_missed (by omega)

theorem Shown.not_missed (h : Shown board time s) (hw : Enough board w) : ¬ Missed w s := by
  have hsoon := h.soon
  rw [longest_awake h.awake] at hsoon
  have hearly := h.early
  have hround := hw.round
  apply h.shown.not_missed
  split at hearly
  · omega
  · omega

theorem Sleeping.not_missed (h : Sleeping board time s) (hw : Enough board w) : ¬ Missed w s := by
  have hsoon := h.soon
  rw [longest_asleep h.asleep] at hsoon
  have hearly := h.early
  have hround := hw.round
  apply h.shown.not_missed
  split at hearly
  · omega
  · omega

/-! ## One round -/

/-- At no point has a level been missed. -/
def sampleWatch (w : ℕ) : Watch Call System := .always fun s => ¬ Missed w s

theorem Timed.called (h : Timed board s) : Timed board s.called :=
  ⟨h.changed, Nat.le_refl _, Nat.le_add_right _ _⟩

theorem level_button (s : System) : decide (s.level .button1 ≠ 0) = s.pressed := by
  unfold System.level
  cases s.pressed with
  | true => rfl
  | false => rfl

/-- The calls from the read to the moment at which the LED shows it. -/
def callsToSet (val : Bool) : ℕ := if val then 1 else 0

/-- A read of what the LED shows already makes that a sample of now. -/
theorem Due.read (h : Due board w time s) (hw : Enough board w) :
    HasRead board w s.pressed (callsToSet s.pressed) s.called := by
  have hsoon := h.soon
  rw [longest_awake h.awake] at hsoon
  have hdue := h.due
  have hsetUp := hw.setUp
  have hshown : ∃ time, Sample time s.lit s ∧
      s.now + (callsToSet s.pressed + 1) * board.busy ≤ time + w := by
    cases hlit : s.lit with
    | true =>
      rw [hlit, if_pos rfl] at hdue
      cases hpressed : s.pressed with
      | true =>
        refine ⟨s.now, ⟨Nat.le_refl _, fun _ => hpressed.symm⟩, ?_⟩
        simp only [callsToSet, if_true]
        omega
      | false =>
        rw [← hlit]
        refine ⟨time, h.shown, ?_⟩
        simp only [callsToSet, Bool.false_eq_true, if_false]
        omega
    | false =>
      rw [hlit, if_neg Bool.false_ne_true] at hdue
      cases hpressed : s.pressed with
      | true =>
        rw [← hlit]
        refine ⟨time, h.shown, ?_⟩
        simp only [callsToSet, if_true]
        omega
      | false =>
        refine ⟨s.now, ⟨Nat.le_refl _, fun _ => hpressed.symm⟩, ?_⟩
        simp only [callsToSet, Bool.false_eq_true, if_false]
        omega
  obtain ⟨shown, hsample, hcalls⟩ := hshown
  refine ⟨h.toTimed.called, h.awake, ⟨shown, ⟨hsample.le, hsample.level⟩, hcalls⟩, s.now,
    ⟨Nat.le_refl _, fun _ => rfl⟩, ?_⟩
  dsimp only [System.called, callsToSet]
  cases s.pressed with
  | true => simp
  | false => simp

/-- One of the calls after the read. -/
theorem HasRead.next (h : HasRead board w val (k + 1) s) : HasRead board w val k s.called := by
  have hsoon := h.soon
  rw [longest_awake h.awake] at hsoon
  obtain ⟨shown, hshown, hdue⟩ := h.shown
  obtain ⟨read, hread, hrecent⟩ := h.read
  rw [Nat.succ_mul] at hdue hrecent
  refine ⟨h.toTimed.called, h.awake, ⟨shown, ⟨hshown.le, hshown.level⟩, ?_⟩, read,
    ⟨hread.le, hread.level⟩, ?_⟩
  · dsimp only [System.called]
    omega
  · dsimp only [System.called]
    omega

theorem HasRead.set (h : HasRead board w val 0 s) :
    ∃ time, Shown board time (s.set .led1 val).called := by
  have hsoon := h.soon
  rw [longest_awake h.awake] at hsoon
  obtain ⟨read, hread, hrecent⟩ := h.read
  have hearly : s.now ≤ read + board.busy + if val then board.busy else 0 := by omega
  exact ⟨read, ⟨h.changed, Nat.le_refl _, Nat.le_add_right _ _⟩, h.awake,
    ⟨hread.le, hread.level⟩, hearly⟩

theorem Shown.sleepFor (h : Shown board time s) :
    Sleeping board time (System.called { s with asleep := some SLEEP_TIME_MS }) := by
  have hsoon := h.soon
  rw [longest_awake h.awake] at hsoon
  have hearly := h.early
  have hasleep : s.now ≤ time + 2 * board.busy + if s.lit then board.busy else 0 := by omega
  exact ⟨⟨h.changed, Nat.le_refl _, Nat.le_add_right _ _⟩, rfl, ⟨h.shown.le, h.shown.level⟩,
    hasleep⟩

theorem Sleeping.wake (h : Sleeping board time s) (hw : Enough board w) :
    Due board w time (System.called { s with asleep := none }) := by
  have hsoon := h.soon
  rw [longest_asleep h.asleep] at hsoon
  have hearly := h.early
  have hround := hw.round
  have hdue : s.now + 2 * board.busy + (if s.lit then 0 else board.busy) ≤ time + w := by
    by_cases hlit : s.lit = true
    · rw [if_pos hlit] at hearly
      rw [if_pos hlit]
      omega
    · rw [if_neg hlit] at hearly
      rw [if_neg hlit]
      omega
  exact ⟨⟨h.changed, Nat.le_refl _, Nat.le_add_right _ _⟩, rfl, ⟨h.shown.le, h.shown.level⟩, hdue⟩

theorem read_triple (hw : Enough board w) (hread : board.readFails = false) :
    Triple (device board) (sampleWatch w) (Due board w time)
      (liftM (Call.gpioPinGetDt .button1)) fun r =>
        HasRead board w (decide (r ≠ 0)) (callsToSet (decide (r ≠ 0))) := by
  apply Triple.lift due_stable (fun _ => hasRead_stable) fun t ht => ht.not_missed
  intro t r u ht hu
  obtain ⟨v, ⟨rfl, rfl | ⟨hfails, -⟩⟩, rfl⟩ := hu
  · rw [level_button]
    exact ht.read hw
  · rw [hread] at hfails
    cases hfails

theorem printk_triple (text : String) :
    Triple (device board) (sampleWatch w) (HasRead board w val (k + 1))
      (liftM (Call.printk text)) fun _ => HasRead board w val k := by
  apply Triple.lift hasRead_stable (fun _ => hasRead_stable) fun t ht => ht.not_missed
  intro t r u ht hu
  obtain ⟨v, hv, rfl⟩ := hu
  obtain rfl : v = t := hv
  exact ht.next

theorem set_triple (hset : board.setFails = false) (val : Bool) :
    Triple (device board) (sampleWatch w) (HasRead board w val 0)
      (liftM (Call.gpioPinSetDt .led1 val)) fun _ s => ∃ time, Shown board time s := by
  apply Triple.lift hasRead_stable
  · intro _ s t hm hs
    obtain ⟨time, hs⟩ := hs
    exact ⟨time, shown_stable s t hm hs⟩
  · intro t ht
    exact ht.not_missed
  · intro t r u ht hu
    obtain ⟨v, ⟨-, rfl⟩ | ⟨hfails, -⟩, rfl⟩ := hu
    · exact ht.set
    · rw [hset] at hfails
      cases hfails

theorem kMsleep_triple (hw : Enough board w) (time : ℕ) :
    Triple (device board) (sampleWatch w) (Shown board time) (kMsleep SLEEP_TIME_MS) fun _ =>
      Due board w time := by
  apply Triple.bind (Q := fun _ => Sleeping board time)
  · apply Triple.lift shown_stable (fun _ => sleeping_stable) fun t ht => ht.not_missed hw
    intro t _ u ht hu
    obtain ⟨v, rfl, rfl⟩ := hu
    exact ht.sleepFor
  · intro _
    apply Triple.lift sleeping_stable (fun _ => due_stable) fun t ht => ht.not_missed hw
    intro t _ u ht hu
    obtain ⟨v, ⟨-, rfl⟩, rfl⟩ := hu
    exact ht.wake hw

/-- From the moment on at which only the LED is to be set, to `val`. -/
theorem shown_triple (hw : Enough board w) (hset : board.setFails = false) (val : Bool) :
    Triple (device board) (sampleWatch w) (HasRead board w val 0) (do
      let _ ← Call.gpioPinSetDt .led1 val
      kMsleep SLEEP_TIME_MS
      return .inl () : Prog Call (Unit ⊕ ℤ)) fun x s =>
        x.elim (fun _ => ∃ time, Due board w time s) fun _ => False := by
  apply (set_triple hset val).bind
  intro _ s hs
  obtain ⟨time, hs⟩ := hs
  refine Triple.bind (kMsleep_triple hw time) (fun _ => ?_) s hs
  apply Triple.pure due_stable
  intro t ht
  exact ⟨time, ht⟩

theorem sampling_triple (hw : Enough board w) (hread : board.readFails = false)
    (hset : board.setFails = false) :
    Triple (device board) (sampleWatch w) (fun s => ∃ time, Due board w time s) sampling
      fun _ _ => False := by
  apply Triple.repeatM (fun _ s => ∃ time, Due board w time s)
  · intro _ s t hm hs
    obtain ⟨time, hs⟩ := hs
    exact ⟨time, due_stable s t hm hs⟩
  · exact fun _ _ _ _ h => h
  · intro _ t ht
    obtain ⟨time, ht⟩ := ht
    exact ht.not_missed
  · intro _ s hs
    obtain ⟨time, hs⟩ := hs
    refine Triple.bind (read_triple hw hread) (fun r => ?_) s hs
    by_cases hr : r ≠ 0
    · -- the message comes first
      simp only [hr, ne_eq, not_false_eq_true, decide_true, if_true]
      exact (printk_triple _).bind fun _ => shown_triple hw hset true
    · simp only [hr, decide_false]
      exact shown_triple hw hset false

/-! ## The whole program -/

theorem Starting.next (h : Starting board k s) (hlit : 2 ≤ k → s.lit = true) :
    Starting board (k + 1) s.called := by
  have hsoon := h.soon
  rw [longest_awake h.awake] at hsoon
  have hearly := h.early
  refine ⟨h.toTimed.called, h.awake, ?_, fun hk => hlit (Nat.le_of_succ_le_succ hk)⟩
  rw [Nat.succ_mul]
  dsimp only [System.called]
  omega

theorem deviceIsReady_triple (hw : Enough board w) (pin : Pin) (hk : k < 2) :
    Triple (device board) (sampleWatch w) (Starting board k) (liftM (Call.deviceIsReady pin))
      fun _ => Starting board (k + 1) := by
  apply Triple.lift starting_stable (fun _ => starting_stable)
    fun t ht => ht.not_missed hw (by omega)
  intro t _ u ht hu
  obtain ⟨v, hv, rfl⟩ := hu
  obtain rfl : v = t := hv
  exact ht.next fun hle => absurd hk (Nat.not_lt.mpr hle)

/-- The LED is set up lit. -/
theorem configure_led_triple (hw : Enough board w) :
    Triple (device board) (sampleWatch w) (Starting board 2)
      (liftM (Call.gpioPinConfigureDt .led1 .outputActive))
      fun ret s => 0 ≤ ret → Starting board 3 s := by
  apply Triple.lift starting_stable
  · intro _ s t hm hs hret
    exact starting_stable s t hm (hs hret)
  · intro t ht
    exact ht.not_missed hw (by decide)
  · intro t ret u ht hu hret
    obtain ⟨v, ⟨-, rfl⟩ | ⟨hneg, -⟩, rfl⟩ := hu
    · have hlit : Starting board 2 (t.configure .led1 .outputActive) :=
        ⟨⟨ht.changed, ht.past, ht.soon⟩, ht.awake, ht.early, fun _ => rfl⟩
      exact hlit.next fun _ => rfl
    · exact absurd hneg (Int.not_lt.mpr hret)

theorem configure_button_triple (hw : Enough board w) :
    Triple (device board) (sampleWatch w) (Starting board 3)
      (liftM (Call.gpioPinConfigureDt .button1 .input)) fun _ => Starting board 4 := by
  apply Triple.lift starting_stable (fun _ => starting_stable)
    fun t ht => ht.not_missed hw (by decide)
  intro t _ u ht hu
  obtain ⟨v, ⟨-, rfl⟩ | ⟨-, rfl⟩, rfl⟩ := hu
  · exact ht.next fun _ => ht.lit (Nat.le_refl 3)
  · exact ht.next fun _ => ht.lit (Nat.le_refl 3)

theorem Starting.due (h : Starting board 4 s) (hw : Enough board w) : Due board w 0 s := by
  have hearly := h.early
  have hsetUp := hw.setUp
  refine ⟨h.toTimed, h.awake, ⟨Nat.zero_le _, fun hlt => absurd hlt (Nat.not_lt_zero _)⟩, ?_⟩
  rw [h.lit (by decide), if_pos rfl]
  omega

theorem main_triple (hw : Enough board w) (hread : board.readFails = false)
    (hset : board.setFails = false) :
    Triple (device board) (sampleWatch w) (Starting board 0) main fun _ _ => True := by
  have hreturn : ∀ P : System → Prop,
      Triple (device board) (sampleWatch w) P (pure (-1) : Prog Call ℤ) fun _ _ => True :=
    fun P => (Triple.pure (P := fun _ => True) (fun _ _ _ h => h) fun _ h => h).conseq
      (fun _ _ => trivial) fun _ _ h => h
  have hsampling : Triple (device board) (sampleWatch w) (Starting board 4) sampling
      fun _ _ => True :=
    (sampling_triple hw hread hset).conseq (fun _ hs => ⟨0, hs.due hw⟩) fun _ _ _ => trivial
  unfold main
  apply (deviceIsReady_triple hw .led1 (by decide)).bind
  intro ready
  cases ready with
  | false => exact hreturn _
  | true =>
    apply (deviceIsReady_triple hw .button1 (by decide)).bind
    intro ready
    cases ready with
    | false => exact hreturn _
    | true =>
      apply (configure_led_triple hw).bind
      intro ret
      by_cases hneg : ret < 0
      · simp only [hneg, if_true]
        exact hreturn _
      · simp only [hneg, if_false]
        have hbutton : Triple (device board) (sampleWatch w) (fun s => 0 ≤ ret → Starting board 3 s)
            (liftM (Call.gpioPinConfigureDt .button1 .input)) fun _ => Starting board 4 :=
          (configure_button_triple hw).conseq (fun s hs => hs (Int.not_lt.mp hneg)) fun _ _ h => h
        apply hbutton.bind
        intro ret
        by_cases hneg : ret < 0
        · simp only [hneg, if_true]
          exact hreturn _
        · simp only [hneg, if_false]
          exact hsampling

theorem powerOn_starting : Starting board 0 powerOn :=
  ⟨⟨Nat.le_refl _, Nat.le_refl _, Nat.zero_le _⟩, rfl, Nat.zero_le _, fun h => absurd h (by decide)⟩

theorem never_missed {q : Prog Call ℤ} (hw : Enough board w) (hread : board.readFails = false)
    (hset : board.setFails = false) (h : Steps (device board) (main, powerOn) (q, t))
    (hq : ∀ a, q ≠ .ret a) : ¬ Missed w t := by
  have hmeets := main_triple hw hread hset powerOn powerOn_starting q t h
  cases q with
  | ret a => exact absurd rfl (hq a)
  | call c k => exact hmeets
  | loop b body k => exact hmeets

/-! ## Runs that miss a level -/

/-- The next call is not to come yet. -/
theorem ticks (n : ℕ) (hn : s.now + n ≤ s.calledAt + longest board s) :
    (device board).Moves s (s.pass n) := by
  induction n with
  | zero => exact .refl
  | succ n ih =>
    have hlt : (s.pass n).now < (s.pass n).calledAt + longest board (s.pass n) := hn
    exact (ih (by omega)).tail (.tick hlt)

/-- What the calls do: what may fail fails. -/
def effect (board : Board) {ρ : Type} : Call ρ → System → Option (ρ × System)
  | .deviceIsReady _, s => some (true, s)
  | .gpioPinConfigureDt pin flags, s => some (0, s.configure pin flags)
  | .gpioPinGetDt pin, s => some (if board.readFails then -5 else s.level pin, s)
  | .gpioPinSetDt pin val, s => some (if board.setFails then (-5, s) else (0, s.set pin val))
  | .printk _, s => some ((), s)
  | .sleepFor ms, s => some ((), { s with asleep := some ms })
  | .wake, s => s.asleep.map fun _ => ((), { s with asleep := none })

/-- Each call comes as late as it may. -/
def reply (board : Board) {ρ : Type} (c : Call ρ) (s : System) : Option (ρ × System) :=
  (effect board c (s.pass (longest board s))).map fun x => (x.1, x.2.called)

theorem effect_follows {board' : Board} {ρ : Type} {c : Call ρ} {r : ρ}
    (hread : board'.readFails = true → board.readFails = true)
    (hset : board'.setFails = true → board.setFails = true)
    (hasleep : ∀ ms, s.asleep = some ms → s.calledAt + ms * MS ≤ s.now)
    (h : effect board' c s = some (r, t)) : Effect board c s r t := by
  cases c with
  | deviceIsReady | printk | sleepFor =>
    cases h
    rfl
  | gpioPinConfigureDt pin flags =>
    cases h
    exact .inl ⟨rfl, rfl⟩
  | gpioPinGetDt pin =>
    simp only [effect, Option.some.injEq] at h
    cases hfails : board'.readFails with
    | true =>
      rw [hfails, if_pos rfl] at h
      cases h
      exact ⟨rfl, .inr ⟨hread hfails, by decide⟩⟩
    | false =>
      rw [hfails, if_neg Bool.false_ne_true] at h
      cases h
      exact ⟨rfl, .inl rfl⟩
  | gpioPinSetDt pin val =>
    simp only [effect, Option.some.injEq] at h
    cases hfails : board'.setFails with
    | true =>
      rw [hfails, if_pos rfl] at h
      cases h
      exact .inr ⟨hset hfails, by decide, rfl⟩
    | false =>
      rw [hfails, if_neg Bool.false_ne_true] at h
      cases h
      exact .inl ⟨rfl, rfl⟩
  | wake =>
    obtain ⟨ms, hms, heq⟩ := Option.map_eq_some_iff.mp h
    cases heq
    exact ⟨⟨ms, hms, hasleep ms hms⟩, rfl⟩

/-- No time has passed since the last call. -/
def Fresh (s : System) : Prop := s.now = s.calledAt

theorem reply_follows (board' : Board) (hlate : board'.late ≤ board.late)
    (hbusy : board'.busy ≤ board.busy) (hread : board'.readFails = true → board.readFails = true)
    (hset : board'.setFails = true → board.setFails = true) :
    Script.FollowsIn (reply board') (device board) Fresh := by
  intro ρ c s r t hs h
  have hs : s.now = s.calledAt := hs
  obtain ⟨x, hx, heq⟩ := Option.map_eq_some_iff.mp h
  cases heq
  have hlongest : longest board' s ≤ longest board s := by
    unfold longest
    cases s.asleep with
    | none => exact hbusy
    | some ms => exact Nat.add_le_add_left hlate _
  have hticks : (device board).Moves s (s.pass (longest board' s)) := ticks _ (by omega)
  refine ⟨rfl, _, hticks, x.2, effect_follows hread hset ?_ hx, rfl⟩
  intro ms hms
  have hasleep : s.asleep = some ms := hms
  rw [longest_asleep hasleep]
  dsimp only [System.pass]
  omega

/-- The same board, on which nothing fails. -/
def Board.sound (board : Board) : Board := { board with readFails := false, setFails := false }

theorem sound_follows (board : Board) :
    Script.FollowsIn (reply board.sound) (device board) Fresh := by
  have hlate : board.sound.late ≤ board.late := Nat.le_refl _
  have hbusy : board.sound.busy ≤ board.busy := Nat.le_refl _
  apply reply_follows board.sound hlate hbusy
  · exact nofun
  · exact nofun

/-- A button that is never pressed, while every call of the set-up comes as late as it may. -/
theorem setUp_missed (hw : w < 6 * board.busy) : ∃ (q : Prog Call ℤ) (t : System),
    Steps (device board) (main, powerOn) (q, t) ∧ (∀ a, q ≠ .ret a) ∧ Missed w t := by
  have hrun := replay_steps_in (sound_follows board) 6 (main, powerOn) rfl
  have hticks := hrun.trans (Steps.of_moves _ (ticks board.busy (Nat.le_refl _)))
  refine ⟨_, _, hticks, nofun, ?_, Bool.false_ne_true.symm⟩
  have hnow : 0 + w < 0 + board.busy + board.busy + board.busy + board.busy + board.busy +
      board.busy := by omega
  exact hnow

/-- A button pressed right after a read, and held while every call of the round comes as late as it
may. -/
theorem round_missed (hw : w < SLEEP_TIME_MS * MS + board.late + 5 * board.busy) :
    ∃ (q : Prog Call ℤ) (t : System),
      Steps (device board) (main, powerOn) (q, t) ∧ (∀ a, q ≠ .ret a) ∧ Missed w t := by
  have hread := replay_steps_in (sound_follows board) 6 (main, powerOn) rfl
  have hpressed := hread.trans (Steps.of_moves _ (.single (.toggle _)))
  have hround := hpressed.trans (replay_steps_in (sound_follows board) 6 _ rfl)
  have hticks := hround.trans (Steps.of_moves _ (ticks board.busy (Nat.le_refl _)))
  refine ⟨_, _, hticks, nofun, ?_, Bool.false_ne_true⟩
  have hnow : ∀ pressed : ℕ, pressed + w < pressed + board.busy + board.busy +
      (SLEEP_TIME_MS * MS + board.late) + board.busy + board.busy + board.busy := by
    intro pressed
    omega
  exact hnow _

/-- The LED is lit although the button has never been pressed. -/
def stuck (now : ℕ) : System := ⟨now, false, 0, true, now, none⟩

theorem stuck_missed (w : ℕ) : Missed w (stuck (SLEEP_TIME_MS * MS * (w + 1))) := by
  constructor
  · have hlt : w < SLEEP_TIME_MS * MS * (w + 1) :=
      Nat.lt_of_lt_of_le (Nat.lt_succ_self w) (Nat.le_mul_of_pos_left _ (by decide))
    dsimp only [stuck]
    omega
  · exact Bool.false_ne_true.symm

/-- It stays lit where a call of every round fails. -/
theorem stuck_steps {board' : Board} (hfollows : Script.FollowsIn (reply board') (device board) Fresh)
    (hstart : replay (reply board') 4 (main, powerOn) = (sampling, stuck 0))
    (hround : ∀ now, ∃ k, replay (reply board') k (sampling, stuck now) =
      (sampling, stuck (now + SLEEP_TIME_MS * MS))) (n : ℕ) :
    Steps (device board) (main, powerOn) (sampling, stuck (SLEEP_TIME_MS * MS * n)) := by
  induction n with
  | zero => exact hstart ▸ replay_steps_in hfollows 4 (main, powerOn) rfl
  | succ n ih =>
    obtain ⟨k, hk⟩ := hround (SLEEP_TIME_MS * MS * n)
    exact ih.trans (hk ▸ replay_steps_in hfollows k (sampling, stuck (SLEEP_TIME_MS * MS * n)) rfl)

/-- **What the LED shows.** In every run, as long as `main` has not returned, it shows each level that
the button has held for longer than `w`, if and only if `w` is at least as long as the calls of the
set-up and as a round at its latest, no read fails and no write fails. -/
theorem held_shown_iff :
    (∀ (q : Prog Call ℤ) (t : System), Steps (device board) (main, powerOn) (q, t) →
      (∀ a, q ≠ .ret a) → t.changedAt + w < t.now → t.lit = t.pressed) ↔
        Enough board w ∧ board.readFails = false ∧ board.setFails = false := by
  constructor
  · intro h
    have hmissed : ∀ q t, Steps (device board) (main, powerOn) (q, t) → (∀ a, q ≠ .ret a) →
        ¬ Missed w t := fun q t hrun hq hm => hm.2 (h q t hrun hq hm.1)
    refine ⟨⟨?_, ?_⟩, ?_, ?_⟩
    · apply Nat.le_of_not_lt
      intro hshort
      obtain ⟨q, t, hrun, hq, hm⟩ := setUp_missed hshort
      exact hmissed q t hrun hq hm
    · apply Nat.le_of_not_lt
      intro hshort
      obtain ⟨q, t, hrun, hq, hm⟩ := round_missed hshort
      exact hmissed q t hrun hq hm
    · apply eq_false_of_ne_true
      intro hfails
      have hfollows : Script.FollowsIn (reply ⟨0, 0, true, false⟩) (device board) Fresh :=
        reply_follows ⟨0, 0, true, false⟩ (Nat.zero_le _) (Nat.zero_le _) (fun _ => hfails) nofun
      exact hmissed _ _ (stuck_steps hfollows rfl (fun now => ⟨6, rfl⟩) (w + 1))
        (fun _ h => by cases h) (stuck_missed w)
    · apply eq_false_of_ne_true
      intro hfails
      have hfollows : Script.FollowsIn (reply ⟨0, 0, false, true⟩) (device board) Fresh :=
        reply_follows ⟨0, 0, false, true⟩ (Nat.zero_le _) (Nat.zero_le _) nofun fun _ => hfails
      exact hmissed _ _ (stuck_steps hfollows rfl (fun now => ⟨5, rfl⟩) (w + 1))
        (fun _ h => by cases h) (stuck_missed w)
  · intro h q t hrun hq hheld
    obtain ⟨hw, hread, hset⟩ := h
    apply Decidable.byContradiction
    intro hne
    exact never_missed hw hread hset hrun hq ⟨hheld, hne⟩

end NrfProjects.ButtonController
