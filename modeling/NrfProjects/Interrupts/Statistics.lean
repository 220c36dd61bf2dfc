import Mathlib.Tactic.Ring
import Mathlib.Tactic.SplitIfs
import NrfProjects.Interaction.Safety
import NrfProjects.Interrupts.Main

/-! # When the printed statistics agree

Between two interrupts the total is the sum of the two counts, but each number of a report is read
at its own moment. A report is described by the interrupts there had been at each of its reads. -/

namespace NrfProjects.Interrupts
set_option autoImplicit false
open Interaction

/-! ## Reports -/

/-- What a report says; `counts` is absent where it has the line that there are none. -/
structure Report where
  total : UInt32
  counts : Option (UInt32 × UInt32)
  activeTypes : UInt32

def countLines : Option (UInt32 × UInt32) → List Message
  | none => [.noneFired]
  | some (button, timer) => [.button button, .timer timer]

def Report.lines (r : Report) : List Message :=
  .statistics :: .total r.total :: (countLines r.counts ++
    [.activeTypes r.activeTypes, .complete, .aboutToSleep SLEEP_TIME_MS])

/-- How many of two counts are not 0. -/
def nonzero (button timer : UInt32) : UInt32 :=
  (if button = 0 then 0 else 1) + (if timer = 0 then 0 else 1)

def Mark.button (m : Mark) : UInt32 := .ofNat m.presses

def Mark.timer (m : Mark) : UInt32 := .ofNat m.expiries

def Mark.total (m : Mark) : UInt32 := .ofNat (m.presses + m.expiries)

/-- One moment `check` for the line that there are none: both counts are 0 there. -/
def Report.Consistent (r : Report) (check : Mark) : Prop :=
  match r.counts with
  | none => (check.button = 0 ∧ check.timer = 0) ∧ r.activeTypes = 0
  | some (button, timer) => r.total = button + timer ∧ r.activeTypes = nonzero button timer

/-- The report on the console is a consistent snapshot; its second read is the check. -/
def Consistent (s : System) : Prop :=
  ∃ (r : Report) (check : Mark), s.report = r.lines ∧ s.marks[1]? = some check ∧ r.Consistent check

/-! ## Between two reads -/

theorem ofNat_succ (n : ℕ) : UInt32.ofNat (n + 1) = UInt32.ofNat n + 1 := UInt32.ofNat_add n 1

/-- The counters are the numbers of interrupts modulo 2³². -/
structure Counted (s : System) : Prop where
  button : s.button = s.fired.button
  timer : s.timer = s.fired.timer
  total : s.total = s.fired.total

theorem Counted.buttonPressed {s : System} (h : Counted s) : Counted (buttonPressed s) where
  button := by rw [Interrupts.buttonPressed, h.button]; exact (ofNat_succ _).symm
  timer := h.timer
  total := by
    rw [Interrupts.buttonPressed, h.total]
    simp only [Mark.total, Nat.add_right_comm, ofNat_succ]

theorem Counted.timerExpiryFunction {s : System} (h : Counted s) :
    Counted (timerExpiryFunction s) where
  button := h.button
  timer := by rw [Interrupts.timerExpiryFunction, h.timer]; exact (ofNat_succ _).symm
  total := by
    rw [Interrupts.timerExpiryFunction, h.total]
    simp only [Mark.total, ← Nat.add_assoc, ofNat_succ]

instance : LE Mark := ⟨fun m m' => m.presses ≤ m'.presses ∧ m.expiries ≤ m'.expiries⟩

theorem Mark.le_refl (m : Mark) : m ≤ m := ⟨Nat.le_refl _, Nat.le_refl _⟩

/-- `main` has printed `lines` of a report and read counters at `marks`. -/
structure At (lines : List Message) (marks : List Mark) (s : System) : Prop where
  counted : Counted s
  printed : s.report = lines
  reads : s.marks = marks
  past : ∀ m ∈ marks, m ≤ s.fired

variable {W : Watch Call System} {lines : List Message} {marks : List Mark}

theorem counted_stable : device.Stable Counted := by
  intro s t hm hs
  cases hm with
  | inl h => exact h ▸ hs.buttonPressed
  | inr h => exact h ▸ hs.timerExpiryFunction

theorem at_stable : device.Stable (At lines marks) := by
  intro s t hm hs
  have hcounted := counted_stable s t hm hs.counted
  cases hm with
  | inl h =>
    subst h
    refine ⟨hcounted, hs.printed, hs.reads, fun m hm => ?_⟩
    obtain ⟨hpresses, hexpiries⟩ := hs.past m hm
    exact ⟨Nat.le_succ_of_le hpresses, hexpiries⟩
  | inr h =>
    subst h
    refine ⟨hcounted, hs.printed, hs.reads, fun m hm => ?_⟩
    obtain ⟨hpresses, hexpiries⟩ := hs.past m hm
    exact ⟨hpresses, Nat.le_succ_of_le hexpiries⟩

theorem title_triple (hW : ∀ t, W.atCall (.printk .statistics) t) :
    Triple device W Counted (liftM (Call.printk .statistics)) fun _ => At [.statistics] [] := by
  apply Triple.lift counted_stable (fun _ => at_stable) fun t _ => hW t
  intro s _ t hs ha
  obtain rfl : t = s.print .statistics := ha
  exact ⟨⟨hs.button, hs.timer, hs.total⟩, rfl, rfl, fun _ hm => by cases hm⟩

theorem print_triple {m : Message} (hm : m ≠ .statistics) (hW : ∀ t, W.atCall (.printk m) t) :
    Triple device W (At lines marks) (liftM (Call.printk m)) fun _ =>
      At (lines ++ [m]) marks := by
  apply Triple.lift at_stable (fun _ => at_stable) fun t _ => hW t
  intro s _ t hs ha
  obtain rfl : t = s.print m := ha
  rw [System.print, if_neg hm]
  exact ⟨⟨hs.counted.button, hs.counted.timer, hs.counted.total⟩, by rw [hs.printed], hs.reads,
    hs.past⟩

/-- After a read: the value is that of the last mark. -/
def Read (value : Mark → UInt32) (lines : List Message) (marks : List Mark) (r : UInt32)
    (s : System) : Prop :=
  ∃ m, r = value m ∧ (∀ m' ∈ marks, m' ≤ m) ∧ At lines (marks ++ [m]) s

theorem read_triple {c : Call UInt32} {counter : System → UInt32} {value : Mark → UInt32}
    (hc : ∀ s r t, device.answer c s r t → r = counter s ∧ t = s.mark)
    (hvalue : ∀ s, Counted s → counter s = value s.fired) (hW : ∀ t, W.atCall c t) :
    Triple device W (At lines marks) (liftM c) (Read value lines marks) := by
  apply Triple.lift at_stable
  · intro r s t hm hs
    obtain ⟨m, hr, hpast, hs⟩ := hs
    exact ⟨m, hr, hpast, at_stable s t hm hs⟩
  · exact fun t _ => hW t
  · intro s r t hs ha
    obtain ⟨rfl, rfl⟩ := hc s r t ha
    refine ⟨s.fired, hvalue s hs.counted, hs.past, ?_⟩
    refine ⟨⟨hs.counted.button, hs.counted.timer, hs.counted.total⟩, hs.printed, ?_, ?_⟩
    · rw [System.mark, hs.reads]
    · intro m hm
      cases List.mem_append.mp hm with
      | inl hm => exact hs.past m hm
      | inr hm =>
        obtain rfl : m = s.fired := List.mem_singleton.mp hm
        exact Mark.le_refl _

theorem button_triple (hW : ∀ t, W.atCall .buttonInterruptCount t) :
    Triple device W (At lines marks) (liftM Call.buttonInterruptCount)
      (Read Mark.button lines marks) :=
  read_triple (fun _ _ _ h => h) (fun _ h => h.button) hW

theorem timer_triple (hW : ∀ t, W.atCall .timerInterruptCount t) :
    Triple device W (At lines marks) (liftM Call.timerInterruptCount)
      (Read Mark.timer lines marks) :=
  read_triple (fun _ _ _ h => h) (fun _ h => h.timer) hW

theorem total_triple (hW : ∀ t, W.atCall .totalInterruptCount t) :
    Triple device W (At lines marks) (liftM Call.totalInterruptCount)
      (Read Mark.total lines marks) :=
  read_triple (fun _ _ _ h => h) (fun _ h => h.total) hW

/-! ## One report -/

/-- Which reads the counts of a report are from, after those at `marks`. -/
inductive CountReads (marks : List Mark) : Option (UInt32 × UInt32) → List Mark → Prop
  | none {check : Mark} (h : check.total = 0) : CountReads marks none [check]
  | some {check button timer : Mark} (h : check.total ≠ 0) (hbutton : ∀ m ∈ marks, m ≤ button)
      (htimer : ∀ m ∈ marks, m ≤ timer) :
      CountReads marks (some (button.button, timer.timer)) [check, button, timer]

/-- Every point of `main` is like every other, except the sleep after a report. -/
structure Unwatched (W : Watch Call System) : Prop where
  print : ∀ m t, W.atCall (.printk m) t
  button : ∀ t, W.atCall .buttonInterruptCount t
  timer : ∀ t, W.atCall .timerInterruptCount t
  total : ∀ t, W.atCall .totalInterruptCount t

theorem printCounts_triple (hW : Unwatched W) :
    Triple device W (At lines marks) printCounts fun _ s =>
      ∃ counts ms, CountReads marks counts ms ∧
        At (lines ++ countLines counts) (marks ++ ms) s := by
  refine (total_triple hW.total).bind fun n s hs => ?_
  obtain ⟨check, rfl, -, hs⟩ := hs
  split_ifs with hzero
  · refine (print_triple (by decide) (hW.print _) s hs).imp fun _ t ht => ?_
    exact ⟨none, [check], .none hzero, ht⟩
  · refine ((button_triple hW.button).bind fun n s hs => ?_) s hs
    obtain ⟨button, rfl, hbutton, hs⟩ := hs
    refine ((print_triple (by simp) (hW.print _)).bind fun _ => ?_) s hs
    refine (timer_triple hW.timer).bind fun n s hs => ?_
    obtain ⟨timer, rfl, htimer, hs⟩ := hs
    refine (print_triple (by simp) (hW.print _) s hs).imp fun _ t ht => ?_
    refine ⟨some (button.button, timer.timer), [check, button, timer], .some hzero ?_ ?_, ?_⟩
    · exact fun m hm => hbutton m (List.mem_append_left _ hm)
    · exact fun m hm => htimer m (List.mem_append_left _ (List.mem_append_left _ hm))
    · simpa [countLines] using ht

/-- The reads a report was printed from. -/
def Report.Reads (r : Report) (marks : List Mark) : Prop :=
  ∃ (total button timer : Mark) (ms : List Mark), r.total = total.total ∧
    CountReads [total] r.counts ms ∧ r.activeTypes = nonzero button.button timer.timer ∧
      marks = total :: ms ++ [button, timer]

theorem activeTypes_eq (button timer : UInt32) :
    (if timer > 0 then (if button > 0 then 0 + 1 else 0) + 1
      else if button > 0 then 0 + 1 else 0) = nonzero button timer := by
  have hpos : ∀ n : UInt32, n > 0 ↔ ¬ n = 0 := fun n => UInt32.pos_iff_ne_zero
  simp only [nonzero, hpos]
  split_ifs <;> rfl

theorem printInterruptStats_triple (hW : Unwatched W) :
    Triple device W Counted printInterruptStats fun _ s =>
      ∃ (r : Report) (marks : List Mark), r.Reads marks ∧ At r.lines marks s := by
  refine (title_triple (hW.print _)).bind fun _ => ?_
  refine (total_triple hW.total).bind fun n s hs => ?_
  obtain ⟨total, rfl, -, hs⟩ := hs
  refine ((print_triple (by simp) (hW.print _)).bind fun _ => ?_) s hs
  refine (printCounts_triple hW).bind fun _ s hs => ?_
  obtain ⟨counts, ms, hcounts, hs⟩ := hs
  refine ((button_triple hW.button).bind fun n s hs => ?_) s hs
  obtain ⟨button, rfl, -, hs⟩ := hs
  refine ((timer_triple hW.timer).bind fun n s hs => ?_) s hs
  obtain ⟨timer, rfl, -, hs⟩ := hs
  refine ((print_triple (by simp) (hW.print _)).bind fun _ => ?_) s hs
  refine (print_triple (by decide) (hW.print _)).bind fun _ s hs => ?_
  refine (print_triple (by decide) (hW.print _) s hs).imp fun _ t ht => ?_
  refine ⟨⟨total.total, counts, nonzero button.button timer.timer⟩, _,
    ⟨total, button, timer, ms, rfl, hcounts, rfl, rfl⟩, ?_⟩
  rw [activeTypes_eq] at ht
  simpa [Report.lines] using ht

/-! ## Consistent reports -/

/-- How many of the two kinds of interrupts do not number a multiple of 2³². -/
def types (presses expiries : ℕ) : ℕ :=
  (if 2 ^ 32 ∣ presses then 0 else 1) + (if 2 ^ 32 ∣ expiries then 0 else 1)

/-- The interrupts between the reads of a report leave it consistent: as far as the numbers printed
go, those after the read of the total cancel out, and the kinds there have been are as many at the
reads for the number of types. A report that there are none has only the check and these reads. -/
def Undisturbed : List Mark → Prop
  | [_, check, activeButton, activeTimer] => 2 ^ 32 ∣ check.presses ∧ 2 ^ 32 ∣ check.expiries ∧
      types activeButton.presses activeTimer.expiries = 0
  | [total, _, button, timer, activeButton, activeTimer] =>
      2 ^ 32 ∣ (button.presses - total.presses) + (timer.expiries - total.expiries) ∧
        types activeButton.presses activeTimer.expiries = types button.presses timer.expiries
  | _ => False

theorem ofNat_eq_zero_iff {n : ℕ} : UInt32.ofNat n = 0 ↔ 2 ^ 32 ∣ n := by
  rw [← UInt32.toNat_inj, UInt32.toNat_ofNat', Nat.dvd_iff_mod_eq_zero]
  rfl

theorem Mark.button_eq_zero_iff {m : Mark} : m.button = 0 ↔ 2 ^ 32 ∣ m.presses :=
  ofNat_eq_zero_iff

theorem Mark.timer_eq_zero_iff {m : Mark} : m.timer = 0 ↔ 2 ^ 32 ∣ m.expiries :=
  ofNat_eq_zero_iff

theorem types_le (presses expiries : ℕ) : types presses expiries ≤ 2 := by
  unfold types
  split_ifs <;> omega

theorem nonzero_eq (m m' : Mark) :
    nonzero m.button m'.timer = UInt32.ofNat (types m.presses m'.expiries) := by
  simp only [nonzero, types, Mark.button_eq_zero_iff, Mark.timer_eq_zero_iff]
  split_ifs <;> rfl

theorem nonzero_eq_ofNat_iff (m m' : Mark) {n : ℕ} (hn : n ≤ 2) :
    nonzero m.button m'.timer = UInt32.ofNat n ↔ types m.presses m'.expiries = n := by
  have hle := types_le m.presses m'.expiries
  rw [nonzero_eq, ← UInt32.toNat_inj, UInt32.toNat_ofNat', UInt32.toNat_ofNat',
    Nat.mod_eq_of_lt (by omega), Nat.mod_eq_of_lt (by omega)]

theorem total_eq_iff {total button timer : Mark} (hbutton : total ≤ button)
    (htimer : total ≤ timer) : total.total = button.button + timer.timer ↔
      2 ^ 32 ∣ (button.presses - total.presses) + (timer.expiries - total.expiries) := by
  have hpresses : total.presses ≤ button.presses := hbutton.1
  have hexpiries : total.expiries ≤ timer.expiries := htimer.2
  rw [Mark.button, Mark.timer, ← UInt32.ofNat_add, Mark.total, ← UInt32.toNat_inj,
    UInt32.toNat_ofNat', UInt32.toNat_ofNat']
  omega

theorem Report.Reads.consistent_iff {r : Report} (h : r.Reads marks) :
    (∃ check, marks[1]? = some check ∧ r.Consistent check) ↔ Undisturbed marks := by
  obtain ⟨counted, counts, active⟩ := r
  obtain ⟨total, activeButton, activeTimer, ms, rfl, hcounts, rfl, rfl⟩ := h
  cases hcounts with
  | @none check hzero =>
    have hactive := nonzero_eq_ofNat_iff activeButton activeTimer (Nat.zero_le 2)
    simp only [List.cons_append, List.nil_append, List.getElem?_cons_succ,
      List.getElem?_cons_zero, Option.some.injEq, exists_eq_left', Report.Consistent, Undisturbed,
      Mark.button_eq_zero_iff, Mark.timer_eq_zero_iff, and_assoc]
    exact and_congr_right fun _ => and_congr_right fun _ => hactive
  | @some check button timer hnz hbutton htimer =>
    have htotal := total_eq_iff (hbutton total (by simp)) (htimer total (by simp))
    have hactive := nonzero_eq_ofNat_iff activeButton activeTimer
      (types_le button.presses timer.expiries)
    simp only [List.cons_append, List.nil_append, List.getElem?_cons_succ,
      List.getElem?_cons_zero, Option.some.injEq, exists_eq_left', Report.Consistent, Undisturbed,
      htotal, nonzero_eq button timer, hactive]

theorem Report.lines_inj {r r' : Report} (h : r.lines = r'.lines) : r = r' := by
  obtain ⟨total, counts, active⟩ := r
  obtain ⟨total', counts', active'⟩ := r'
  cases counts <;> cases counts' <;> simp [Report.lines, countLines, Prod.ext_iff] at h ⊢
  · exact h
  · exact ⟨h.1, ⟨h.2.1, h.2.2.1⟩, h.2.2.2⟩

/-! ## Every run -/

theorem Undisturbed.of_still {r : Report} {m : Mark} (h : r.Reads marks)
    (hall : ∀ m' ∈ marks, m' = m) (hbound : m.presses + m.expiries < 2 ^ 32) :
    Undisturbed marks := by
  obtain ⟨counted, counts, active⟩ := r
  obtain ⟨total, activeButton, activeTimer, ms, -, hcounts, -, rfl⟩ := h
  cases hcounts with
  | @none check hzero =>
    obtain ⟨rfl, rfl, rfl, rfl⟩ : total = m ∧ check = m ∧ activeButton = m ∧ activeTimer = m := by
      simpa using hall
    have hdvd := ofNat_eq_zero_iff.mp hzero
    have hpresses : activeTimer.presses = 0 := by omega
    have hexpiries : activeTimer.expiries = 0 := by omega
    simp [Undisturbed, hpresses, hexpiries, types]
  | @some check button timer hnz hbutton htimer =>
    obtain ⟨rfl, rfl, rfl, rfl, rfl, rfl⟩ : total = m ∧ check = m ∧ button = m ∧ timer = m ∧
        activeButton = m ∧ activeTimer = m := by
      simpa using hall
    simp [Undisturbed]

/-- `main` sleeps after a report. -/
def reportWatch : Watch Call System where
  atLoop _ := True
  atCall
    | .kMsleep _, t => ∃ (r : Report) (marks : List Mark), r.Reads marks ∧ At r.lines marks t
    | _, _ => True

theorem reportWatch_unwatched : Unwatched reportWatch where
  print _ _ := trivial
  button _ := trivial
  timer _ := trivial
  total _ := trivial

theorem counted_print (m : Message) :
    Triple device reportWatch Counted (liftM (Call.printk m)) fun _ => Counted := by
  apply Triple.lift counted_stable (fun _ => counted_stable) fun _ _ => trivial
  intro s _ t hs ha
  obtain rfl : t = s.print m := ha
  unfold System.print
  split_ifs <;> exact ⟨hs.button, hs.timer, hs.total⟩

/-- The calls of the set-up. -/
theorem counted_still {ρ : Type} {c : Call ρ} (hW : ∀ t, reportWatch.atCall c t)
    (hc : ∀ s r t, device.answer c s r t → t = s) :
    Triple device reportWatch Counted (liftM c) fun _ => Counted := by
  apply Triple.lift counted_stable (fun _ => counted_stable) fun t _ => hW t
  intro s r t hs ha
  rwa [hc s r t ha]

theorem setupButton_counted :
    Triple device reportWatch Counted setupButton fun _ => Counted := by
  have hend : ∀ m : Message, Triple device reportWatch Counted
      (do Call.printk m; return : Prog Call Unit) fun _ => Counted := fun m =>
    (counted_print m).bind fun _ => .pure counted_stable fun _ h => h
  refine (counted_print _).bind fun _ => ?_
  refine (counted_still (c := .deviceIsReady) (fun _ => trivial) fun _ _ _ h => h).bind
    fun ready => ?_
  cases ready with
  | false => exact hend _
  | true =>
    refine (counted_still (c := .gpioPinConfigure BUTTON_PIN) (fun _ => trivial)
      fun _ _ _ h => h).bind fun ret => ?_
    split_ifs
    · exact hend _
    refine (counted_still (c := .gpioPinInterruptConfigure BUTTON_PIN) (fun _ => trivial)
      fun _ _ _ h => h).bind fun ret => ?_
    split_ifs
    · exact hend _
    refine (counted_still (c := .gpioInitCallback BUTTON_PIN) (fun _ => trivial)
      fun _ _ _ h => h).bind fun _ => ?_
    refine (counted_still (c := .gpioAddCallback) (fun _ => trivial) fun _ _ _ h => h).bind
      fun ret => ?_
    split_ifs
    · exact hend _
    · exact counted_print _

theorem setupTimer_counted : Triple device reportWatch Counted setupTimer fun _ => Counted := by
  refine (counted_print _).bind fun _ => ?_
  refine (counted_still (c := .kTimerInit) (fun _ => trivial) fun _ _ _ h => h).bind fun _ => ?_
  refine (counted_still (c := .kTimerStart TIMER_INTERVAL_MS TIMER_INTERVAL_MS)
    (fun _ => trivial) fun _ _ _ h => h).bind fun _ => ?_
  exact counted_print _

theorem cycle_counted : Triple device reportWatch Counted cycle fun x s =>
    x.elim (fun _ => Counted s) fun _ => False := by
  refine (printInterruptStats_triple reportWatch_unwatched).bind fun _ => ?_
  refine Triple.bind (Q := fun _ => Counted) ?_ fun _ => ?_
  · apply Triple.lift
    · intro s t hm hs
      obtain ⟨r, marks, hr, hs⟩ := hs
      exact ⟨r, marks, hr, at_stable s t hm hs⟩
    · exact fun _ => counted_stable
    · exact fun _ ht => ht
    · intro s r t hs ha
      obtain ⟨_, _, _, hs⟩ := hs
      obtain rfl : t = s := ha
      exact hs.counted
  · exact .pure counted_stable fun _ h => h

theorem main_triple : Triple device reportWatch Counted main fun _ _ => False := by
  refine (counted_print _).bind fun _ => setupButton_counted.bind fun _ => ?_
  refine setupTimer_counted.bind fun _ => (counted_print _).bind fun _ => ?_
  exact Triple.repeatM (fun _ => Counted) (fun _ => counted_stable) (fun _ _ _ _ h => h)
    (fun _ _ _ => trivial) fun _ => cycle_counted

theorem report_at_sleep {q : Prog Call ℤ} {t : System} (h : Steps device (main, boot) (q, t))
    (hq : q.Calls (.kMsleep SLEEP_TIME_MS)) :
    ∃ (r : Report) (marks : List Mark), r.Reads marks ∧ At r.lines marks t :=
  (main_triple boot ⟨rfl, rfl, rfl⟩).atCall h hq

theorem At.consistent_iff {r : Report} {t : System} (ht : At r.lines marks t)
    (hr : r.Reads marks) : Consistent t ↔ Undisturbed t.marks := by
  rw [ht.reads, ← hr.consistent_iff]
  constructor
  · intro hc
    obtain ⟨r', check, hlines, hcheck, hc⟩ := hc
    obtain rfl : r = r' := Report.lines_inj (ht.printed.symm.trans hlines)
    exact ⟨check, ht.reads ▸ hcheck, hc⟩
  · intro hc
    obtain ⟨check, hcheck, hc⟩ := hc
    exact ⟨r, check, ht.printed, ht.reads.symm ▸ hcheck, hc⟩

/-- **Snapshots.** In every run, each report is a consistent snapshot if and only if the interrupts
between its reads leave it so. They do if there are none, and were fewer than 2³² before. -/
theorem report_consistent_iff {q : Prog Call ℤ} {t : System}
    (h : Steps device (main, boot) (q, t)) (hq : q.Calls (.kMsleep SLEEP_TIME_MS)) :
    (Consistent t ↔ Undisturbed t.marks) ∧
      ∀ m, (∀ m' ∈ t.marks, m' = m) → m.presses + m.expiries < 2 ^ 32 → Consistent t := by
  obtain ⟨r, marks, hr, ht⟩ := report_at_sleep h hq
  have hconsistent := ht.consistent_iff hr
  refine ⟨hconsistent, fun m hall hbound => hconsistent.mpr ?_⟩
  rw [ht.reads] at hall ⊢
  exact .of_still hr hall hbound

/-- The button is pressed before the report, and again once its count has been read. -/
def pressAfterRead {ρ : Type} (c : Call ρ) (s : System) : Bool :=
  match c with
  | .kTimerStart _ _ => true
  | .timerInterruptCount => s.marks.length == 3
  | _ => false

/-- The report then has a total of 1 and a button count of 1. -/
theorem first_report_consistent : ∃ q t, Steps device (main, boot) (q, t) ∧
    q.Calls (.kMsleep SLEEP_TIME_MS) ∧ t.fired.presses = 2 ∧ Consistent t := by
  have hrun := replay_steps (script_follows pressAfterRead) 40 (main, boot)
  refine ⟨_, _, hrun, ⟨_, rfl⟩, rfl, (report_consistent_iff hrun ⟨_, rfl⟩).1.mpr ?_⟩
  exact ⟨⟨0, rfl⟩, rfl⟩

/-- The button is pressed between the read of the total and the read of the button count. -/
def pressInReport {ρ : Type} (c : Call ρ) (s : System) : Bool :=
  match c with
  | .totalInterruptCount => s.marks.length == 1
  | _ => false

/-- The report then has a total of 0 and a button count of 1. -/
theorem torn_report :
    ¬ ∀ (q : Prog Call ℤ) (t : System), Steps device (main, boot) (q, t) →
      q.Calls (.kMsleep SLEEP_TIME_MS) → Consistent t := by
  intro h
  have hrun := replay_steps (script_follows pressInReport) 40 (main, boot)
  have hreport := h _ _ hrun ⟨_, rfl⟩
  obtain ⟨r, marks, hr, ht⟩ := report_at_sleep hrun ⟨_, rfl⟩
  exact absurd ((ht.consistent_iff hr).mp hreport).1 (by decide)

end NrfProjects.Interrupts
