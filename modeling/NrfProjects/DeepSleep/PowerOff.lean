import Mathlib.Tactic.SplitIfs
import NrfProjects.DeepSleep.Main
import NrfProjects.Interaction.Safety

/-! # Switching off

The system is switched off with the LED dark, the timer stopped and the pin sensed for long enough,
at a time that the sleeps, the idle cycles and the calls bound. -/

namespace NrfProjects.DeepSleep
set_option autoImplicit false
open Interaction

/-! ## What a run has cost -/

/-- The milliseconds slept, the number of sleeps, of idle periods and of the other calls, and how
often the LED has been switched on. A call in which the LED is lit at either end is a lit one. -/
structure Cost where
  ms : ℕ
  sleeps : ℕ
  idles : ℕ
  calls : ℕ
  litMs : ℕ
  litSleeps : ℕ
  litCalls : ℕ
  blinks : ℕ

namespace Cost

def zero : Cost := ⟨0, 0, 0, 0, 0, 0, 0, 0⟩

def add (c d : Cost) : Cost :=
  ⟨c.ms + d.ms, c.sleeps + d.sleeps, c.idles + d.idles, c.calls + d.calls, c.litMs + d.litMs,
    c.litSleeps + d.litSleeps, c.litCalls + d.litCalls, c.blinks + d.blinks⟩

def sleep (led : Led) (ms : ℕ) : Cost :=
  ⟨ms, 1, 0, 0, if led = .lit then ms else 0, if led = .lit then 1 else 0, 0, 0⟩

/-- A call in which the LED goes from `led` to `led'`. -/
def call (led led' : Led) : Cost :=
  ⟨0, 0, 0, 1, 0, 0, if led = .lit ∨ led' = .lit then 1 else 0,
    if led' = .lit ∧ led ≠ .lit then 1 else 0⟩

def idle : Cost := ⟨0, 0, 1, 0, 0, 0, 0, 0⟩

/-- The longest it may take. An idle period ends with the timer at the latest. -/
def longest (chip : Chip) (c : Cost) : ℕ :=
  (c.ms + 1000 * c.idles) * MS + chip.late * (c.sleeps + c.idles) + chip.busy * c.calls

/-- The longest the LED may be lit. -/
def litLongest (chip : Chip) (c : Cost) : ℕ :=
  c.litMs * MS + chip.late * c.litSleeps + chip.busy * c.litCalls

theorem add_assoc (c d e : Cost) : (c.add d).add e = c.add (d.add e) := by
  simp only [add, Nat.add_assoc]

theorem longest_add (chip : Chip) (c d : Cost) :
    (c.add d).longest chip = c.longest chip + d.longest chip := by
  simp only [longest, add, Nat.mul_add, Nat.add_mul]
  omega

theorem litLongest_add (chip : Chip) (c d : Cost) :
    (c.add d).litLongest chip = c.litLongest chip + d.litLongest chip := by
  simp only [litLongest, add, Nat.mul_add, Nat.add_mul]
  omega

theorem longest_sleep (chip : Chip) (led : Led) (ms : ℕ) :
    (sleep led ms).longest chip = ms * MS + chip.late := by
  simp only [longest, sleep, Nat.mul_zero, Nat.add_zero, Nat.mul_one]

theorem longest_call (chip : Chip) (led led' : Led) : (call led led').longest chip = chip.busy := by
  simp only [longest, call, Nat.mul_zero, Nat.zero_mul, Nat.zero_add, Nat.mul_one]

theorem longest_idle (chip : Chip) : idle.longest chip = 1000 * MS + chip.late := by
  simp only [longest, idle, Nat.mul_zero, Nat.add_zero, Nat.zero_add, Nat.mul_one]

theorem litLongest_sleep (chip : Chip) (led : Led) (ms : ℕ) :
    (sleep led ms).litLongest chip = if led = .lit then ms * MS + chip.late else 0 := by
  dsimp only [litLongest, sleep]
  split_ifs
  · simp only [Nat.mul_one, Nat.mul_zero, Nat.add_zero]
  · simp only [Nat.mul_zero, Nat.zero_mul]

theorem litLongest_call (chip : Chip) (led led' : Led) :
    (call led led').litLongest chip = if led = .lit ∨ led' = .lit then chip.busy else 0 := by
  dsimp only [litLongest, call]
  split_ifs
  · simp only [Nat.mul_one, Nat.zero_mul, Nat.mul_zero, Nat.zero_add]
  · simp only [Nat.mul_zero, Nat.zero_mul]

theorem litLongest_idle (chip : Chip) : idle.litLongest chip = 0 := by
  simp only [litLongest, idle, Nat.mul_zero, Nat.zero_mul]

end Cost

variable {chip : Chip} {c d : Cost} {led led' : Led} {s t : System} {before after us : ℕ}

/-- A run that has cost `c` so far. -/
structure Spent (chip : Chip) (led : Led) (c : Cost) (s : System) : Prop where
  early : c.ms * MS ≤ s.now
  late : s.now ≤ c.longest chip
  litEarly : c.litMs * MS ≤ s.litFor
  litLate : s.litFor ≤ c.litLongest chip
  blinks : s.blinks = c.blinks
  led : s.led = led

theorem pass_pass (a b : ℕ) : (s.pass a).pass b = s.pass (a + b) := by
  by_cases hlit : s.led = .lit
  · simp only [System.pass, hlit, if_true, Nat.add_assoc]
  · simp only [System.pass, hlit, if_false, Nat.add_zero, Nat.add_assoc]

theorem turn_led : s.turn s.led = s := by
  simp [System.turn]

/-- Time passes in a call, and the LED goes over to `led'` at one moment of it. -/
theorem Spent.call (h : Spent chip led c s) (led' : Led) (hlasts : before + after ≤ chip.busy) :
    Spent chip led' (c.add (.call led led')) (((s.pass before).turn led').pass after) := by
  have hearly := h.early
  have hlate := h.late
  have hlitEarly := h.litEarly
  have hlitLate := h.litLate
  refine ⟨?_, ?_, ?_, ?_, ?_, rfl⟩
  · dsimp only [Cost.add, Cost.call, System.pass, System.turn, Nat.add_zero]
    omega
  · rw [Cost.longest_add, Cost.longest_call]
    dsimp only [System.pass, System.turn]
    omega
  · dsimp only [Cost.add, Cost.call, System.pass, System.turn, Nat.add_zero]
    omega
  · rw [Cost.litLongest_add, Cost.litLongest_call]
    dsimp only [System.pass, System.turn]
    rw [h.led]
    by_cases hbefore : led = .lit
    · simp only [hbefore, true_or, if_true]
      split_ifs
      · omega
      · omega
    · by_cases hafter : led' = .lit
      · simp only [hbefore, hafter, or_true, if_true, if_false]
        omega
      · simp only [hbefore, hafter, or_false, if_false]
        omega
  · dsimp only [Cost.add, Cost.call, System.pass, System.turn]
    rw [h.led, h.blinks]

theorem Spent.quiet (h : Spent chip led c s) (hus : us ≤ chip.busy) :
    Spent chip led (c.add (.call led led)) (s.pass us) := by
  have hled : (s.pass us).led = led := h.led
  have hlasts : us + 0 ≤ chip.busy := hus
  have hcall := h.call led hlasts
  rw [← hled, turn_led, pass_pass] at hcall
  rw [hled] at hcall
  exact hcall

/-- The timer and the sensed pin cost nothing. -/
theorem Spent.congr (h : Spent chip led c s) (hnow : t.now = s.now) (hlit : t.litFor = s.litFor)
    (hblinks : t.blinks = s.blinks) (hled : t.led = s.led) : Spent chip led c t where
  early := hnow ▸ h.early
  late := hnow ▸ h.late
  litEarly := hlit ▸ h.litEarly
  litLate := hlit ▸ h.litLate
  blinks := hblinks.trans h.blinks
  led := hled.trans h.led

theorem Spent.sleep {ms : ℕ} (h : Spent chip led c s) (hlow : ms * MS ≤ us)
    (hhigh : us ≤ ms * MS + chip.late) : Spent chip led (c.add (.sleep led ms)) (s.pass us) := by
  have hearly := h.early
  have hlate := h.late
  have hlitEarly := h.litEarly
  have hlitLate := h.litLate
  have hadd := Nat.add_mul c.ms ms MS
  refine ⟨?_, ?_, ?_, ?_, h.blinks, h.led⟩
  · dsimp only [Cost.add, Cost.sleep, System.pass]
    omega
  · rw [Cost.longest_add, Cost.longest_sleep]
    dsimp only [System.pass]
    omega
  · dsimp only [Cost.add, Cost.sleep, System.pass]
    rw [h.led, Nat.add_mul]
    split_ifs
    · omega
    · omega
  · rw [Cost.litLongest_add, Cost.litLongest_sleep]
    dsimp only [System.pass]
    rw [h.led]
    split_ifs
    · omega
    · omega

/-- Between two calls of `main`, with the timer stopped. -/
structure Resting (chip : Chip) (led : Led) (c : Cost) (s : System) : Prop
    extends Spent chip led c s where
  timer : s.timer = none

/-- The same, with the timer running. -/
structure Ticking (chip : Chip) (led : Led) (c : Cost) (s : System) : Prop
    extends Spent chip led c s where
  timer : ∃ e, s.timer = some e ∧ s.now < e ∧ e ≤ s.now + 1000 * MS ∧
    e ≤ c.longest chip + 1000 * MS

/-! ## The calls -/

/-- What a whole boot costs. -/
def bootCost : Cost where
  ms := 18510
  sleeps := 14
  idles := 5
  calls := 55
  litMs := 5500
  litSleeps := 8
  litCalls := 20
  blinks := 8

/-- The system may be switched off. -/
structure PoweredDown (chip : Chip) (s : System) : Prop
    extends Resting chip .dark bootCost s where
  sense : ∃ since, s.sense = some (11, .low, since) ∧ since + 10 * MS ≤ s.now

/-- The CPU idles only while the timer that will wake it is running. -/
def IdlesSafely (s : System) : Prop :=
  ∃ e, s.timer = some e ∧ s.now < e ∧ e ≤ s.now + 1000 * MS

def offWatch (chip : Chip) : Watch Call System where
  atLoop _ := True
  atCall
    | .kCpuIdle, s => IdlesSafely s
    | .nrfPowerSystemOff, s => PoweredDown chip s
    | _, _ => True

/-- A call that only lets time pass. -/
theorem quiet_spec {ρ : Type} (call : Call ρ) (hs : Resting chip led c s)
    (hwatch : (offWatch chip).atCall call s)
    (hlasts : ∀ before after, Lasts chip call s before after → before + after ≤ chip.busy)
    (heffect : ∀ t r u, Effect chip call t r u → u = t) :
    Safe (device chip) (offWatch chip) (liftM call) s fun _ t =>
      Resting chip led (c.add (.call led led)) t := by
  rw [safe_lift]
  refine ⟨hwatch, fun r t ht => ?_⟩
  obtain ⟨before, after, u, hlast, hu, rfl⟩ := ht
  rw [heffect _ _ _ hu, pass_pass]
  exact ⟨hs.quiet (hlasts _ _ hlast), hs.timer⟩

theorem printk_spec (m : Message) (hs : Resting chip led c s) :
    Safe (device chip) (offWatch chip) (liftM (Call.printk m)) s fun _ t =>
      Resting chip led (c.add (.call led led)) t :=
  quiet_spec _ hs trivial (fun _ _ h => h) fun _ _ _ h => h

theorem deviceIsReady_spec (hs : Resting chip led c s) :
    Safe (device chip) (offWatch chip) (liftM Call.deviceIsReady) s fun _ t =>
      Resting chip led (c.add (.call led led)) t :=
  quiet_spec _ hs trivial (fun _ _ h => h) fun _ _ _ h => h

theorem kYield_spec (hs : Resting chip led c s) :
    Safe (device chip) (offWatch chip) (liftM Call.kYield) s fun _ t =>
      Resting chip led (c.add (.call led led)) t :=
  quiet_spec _ hs trivial (fun _ _ h => h) fun _ _ _ h => h

theorem kSleep_spec (ms : ℕ) (hs : Resting chip led c s) :
    Safe (device chip) (offWatch chip) (liftM (Call.kSleep ms)) s fun _ t =>
      Resting chip led (c.add (.sleep led ms)) t := by
  rw [safe_lift]
  refine ⟨trivial, fun _ t ht => ?_⟩
  obtain ⟨before, after, u, hlasts, hu, rfl⟩ := ht
  obtain rfl : u = s.pass before := hu
  rw [pass_pass]
  exact ⟨hs.toSpent.sleep hlasts.1 hlasts.2, hs.timer⟩

theorem setLed_spec (hok : chip.setFails = false) (value : Bool) (hs : Resting chip led c s) :
    Safe (device chip) (offWatch chip) (setLed value) s fun _ t =>
      Resting chip (led.set value) (c.add (.call led (led.set value))) t := by
  unfold setLed
  rw [safe_bind, safe_lift]
  refine ⟨trivial, fun r t ht => ?_⟩
  rw [safe_pure]
  obtain ⟨before, after, u, hlasts, ⟨-, rfl⟩ | ⟨hfails, -⟩, rfl⟩ := ht
  · have hled : (s.pass before).led = led := hs.led
    dsimp only [System.set]
    rw [hled]
    exact ⟨hs.toSpent.call _ hlasts, hs.timer⟩
  · rw [hok] at hfails
    cases hfails

theorem configure_led_spec (hok : chip.configureFails = false) (hs : Resting chip led c s) :
    Safe (device chip) (offWatch chip) (liftM (Call.gpioPinConfigure .led .outputActive)) s
      fun _ t => Resting chip .lit (c.add (.call led .lit)) t := by
  rw [safe_lift]
  refine ⟨trivial, fun r t ht => ?_⟩
  obtain ⟨before, after, u, hlasts, ⟨-, rfl⟩ | ⟨hbutton | hfails, -⟩, rfl⟩ := ht
  · exact ⟨hs.toSpent.call _ hlasts, hs.timer⟩
  · cases hbutton
  · rw [hok] at hfails
    cases hfails

/-- It does not matter whether the button's pin can be configured. -/
theorem configure_button_spec (hs : Resting chip led c s) :
    Safe (device chip) (offWatch chip) (liftM (Call.gpioPinConfigure .button .input)) s
      fun _ t => Resting chip led (c.add (.call led led)) t := by
  apply quiet_spec (.gpioPinConfigure .button .input) hs trivial fun _ _ h => h
  intro t r u hu
  obtain ⟨-, rfl⟩ | ⟨-, -, rfl⟩ := hu
  · rfl
  · rfl

theorem kTimerStart_spec (hbusy : chip.busy < 1000 * MS) (hs : Resting chip led c s) :
    Safe (device chip) (offWatch chip) (liftM (Call.kTimerStart 1000)) s fun _ t =>
      Ticking chip led (c.add (.call led led)) t := by
  rw [safe_lift]
  refine ⟨trivial, fun r t ht => ?_⟩
  obtain ⟨before, after, u, hlasts, hu, rfl⟩ := ht
  have hlasts : before + after ≤ chip.busy := hlasts
  obtain rfl : u = { s.pass before with timer := some ((s.pass before).now + 1000 * MS) } := hu
  have hspent := hs.toSpent.quiet hlasts
  have hlate := hs.late
  rw [← pass_pass] at hspent
  refine ⟨hspent.congr rfl rfl rfl rfl, _, rfl, ?_, ?_, ?_⟩
  · dsimp only [System.pass]
    omega
  · dsimp only [System.pass]
    omega
  · rw [Cost.longest_add, Cost.longest_call]
    dsimp only [System.pass]
    omega

/-- Any interrupt ends the idling, that of the timer at the latest. -/
theorem kCpuIdle_spec (hs : Ticking chip .dark c s) :
    Safe (device chip) (offWatch chip) (liftM Call.kCpuIdle) s fun _ t =>
      Spent chip .dark (c.add .idle) t := by
  obtain ⟨e, he, hnow, hsoon, hlongest⟩ := hs.timer
  rw [safe_lift]
  refine ⟨⟨e, he, hnow, hsoon⟩, fun r t ht => ?_⟩
  obtain ⟨before, after, u, hlasts, hu, rfl⟩ := ht
  have hlasts := hlasts e he hnow
  obtain rfl : u = s.pass before := hu
  rw [pass_pass]
  have hearly := hs.early
  have hlate := hs.late
  have hlit : (s.pass (before + after)).litFor = s.litFor := by
    dsimp only [System.pass]
    rw [hs.led]
    rfl
  refine ⟨?_, ?_, ?_, ?_, hs.blinks, hs.led⟩
  · dsimp only [Cost.add, Cost.idle, System.pass, Nat.add_zero]
    omega
  · rw [Cost.longest_add, Cost.longest_idle]
    dsimp only [System.pass]
    omega
  · rw [hlit]
    dsimp only [Cost.add, Cost.idle, Nat.add_zero]
    exact hs.litEarly
  · rw [hlit, Cost.litLongest_add, Cost.litLongest_idle, Nat.add_zero]
    exact hs.litLate

theorem kTimerStop_spec (hs : Spent chip led c s) :
    Safe (device chip) (offWatch chip) (liftM Call.kTimerStop) s fun _ t =>
      Resting chip led (c.add (.call led led)) t := by
  rw [safe_lift]
  refine ⟨trivial, fun r t ht => ?_⟩
  obtain ⟨before, after, u, hlasts, hu, rfl⟩ := ht
  obtain rfl : u = { s.pass before with timer := none } := hu
  have hspent := hs.quiet hlasts
  rw [← pass_pass] at hspent
  exact ⟨hspent.congr rfl rfl rfl rfl, rfl⟩

/-- The pin is sensed from one moment of the call on. -/
theorem cfgSenseSet_spec (hs : Resting chip led c s) :
    Safe (device chip) (offWatch chip) (liftM (Call.nrfGpioCfgSenseSet 11 .low)) s fun _ t =>
      Resting chip led (c.add (.call led led)) t ∧
        ∃ since ≤ t.now, t.sense = some (11, .low, since) := by
  rw [safe_lift]
  refine ⟨trivial, fun r t ht => ?_⟩
  obtain ⟨before, after, u, hlasts, hu, rfl⟩ := ht
  obtain rfl : u = { s.pass before with sense := some (11, .low, (s.pass before).now) } := hu
  have hspent := hs.toSpent.quiet hlasts
  rw [← pass_pass] at hspent
  exact ⟨⟨hspent.congr rfl rfl rfl rfl, hs.timer⟩, _, Nat.le_add_right _ _, rfl⟩

/-! ## The functions of the program -/

namespace Cost

def startUp : Cost := ⟨500, 1, 0, 7, 500, 1, 4, 1⟩

def systemOnSleep : Cost := ⟨7000, 2, 0, 5, 2000, 1, 3, 1⟩

def systemOnSleepWithYield : Cost := ⟨7000, 2, 0, 6, 2000, 1, 3, 1⟩

def cpuIdleCycle : Cost := ⟨200, 1, 1, 6, 200, 1, 2, 1⟩

def cpuIdleCycles : ℕ → Cost
  | 0 => ⟨0, 0, 0, 2, 0, 0, 0, 0⟩
  | n + 1 => (cpuIdleCycles n).add cpuIdleCycle

end Cost

theorem Resting.of_eq (h : Resting chip led c s) (hc : c = d) : Resting chip led d s := hc ▸ h

theorem startUp_spec (hconfigure : chip.configureFails = false) (hset : chip.setFails = false)
    (hs : Resting chip .unset c s) :
    Safe (device chip) (offWatch chip) startUp s fun _ t =>
      Resting chip .dark (c.add .startUp) t := by
  simp only [startUp, safe_bind]
  refine (configure_led_spec hconfigure hs).imp fun _ _ hs => ?_
  refine (configure_button_spec hs).imp fun _ _ hs => ?_
  refine (setLed_spec hset true hs).imp fun _ _ hs => ?_
  refine (kSleep_spec 500 hs).imp fun _ _ hs => ?_
  refine (setLed_spec hset false hs).imp fun _ _ hs => ?_
  refine (printk_spec .title hs).imp fun _ _ hs => ?_
  refine (printk_spec .watchLed hs).imp fun _ _ hs => ?_
  refine (printk_spec .started hs).imp fun _ _ hs => ?_
  apply hs.of_eq
  simp only [Cost.add_assoc]
  rfl

theorem systemOnSleep_spec (hset : chip.setFails = false) (hs : Resting chip .dark c s) :
    Safe (device chip) (offWatch chip) systemOnSleep s fun _ t =>
      Resting chip .dark (c.add .systemOnSleep) t := by
  simp only [systemOnSleep, safe_bind]
  refine (printk_spec _ hs).imp fun _ _ hs => ?_
  refine (setLed_spec hset false hs).imp fun _ _ hs => ?_
  refine (kSleep_spec SLEEP_TIME_MS hs).imp fun _ _ hs => ?_
  refine (setLed_spec hset true hs).imp fun _ _ hs => ?_
  refine (printk_spec .wokeUp hs).imp fun _ _ hs => ?_
  refine (kSleep_spec 2000 hs).imp fun _ _ hs => ?_
  refine (setLed_spec hset false hs).imp fun _ _ hs => ?_
  apply hs.of_eq
  simp only [Cost.add_assoc]
  rfl

theorem systemOnSleepWithYield_spec (hset : chip.setFails = false) (hs : Resting chip .dark c s) :
    Safe (device chip) (offWatch chip) systemOnSleepWithYield s fun _ t =>
      Resting chip .dark (c.add .systemOnSleepWithYield) t := by
  simp only [systemOnSleepWithYield, safe_bind]
  refine (printk_spec .threadYield hs).imp fun _ _ hs => ?_
  refine (setLed_spec hset false hs).imp fun _ _ hs => ?_
  refine (kYield_spec hs).imp fun _ _ hs => ?_
  refine (kSleep_spec SLEEP_TIME_MS hs).imp fun _ _ hs => ?_
  refine (setLed_spec hset true hs).imp fun _ _ hs => ?_
  refine (printk_spec .yieldWokeUp hs).imp fun _ _ hs => ?_
  refine (kSleep_spec 2000 hs).imp fun _ _ hs => ?_
  refine (setLed_spec hset false hs).imp fun _ _ hs => ?_
  apply hs.of_eq
  simp only [Cost.add_assoc]
  rfl

theorem cpuIdleCycle_spec (hset : chip.setFails = false) (hbusy : chip.busy < 1000 * MS) (i : ℕ)
    (hs : Resting chip .dark c s) :
    Safe (device chip) (offWatch chip) (cpuIdleCycle i) s fun _ t =>
      Resting chip .dark (c.add .cpuIdleCycle) t := by
  simp only [cpuIdleCycle, kMsleep, safe_bind]
  refine (printk_spec _ hs).imp fun _ _ hs => ?_
  refine (kTimerStart_spec hbusy hs).imp fun _ _ hs => ?_
  refine (kCpuIdle_spec hs).imp fun _ _ hs => ?_
  refine (kTimerStop_spec hs).imp fun _ _ hs => ?_
  refine (setLed_spec hset true hs).imp fun _ _ hs => ?_
  refine (kSleep_spec 200 hs).imp fun _ _ hs => ?_
  refine (setLed_spec hset false hs).imp fun _ _ hs => ?_
  refine (printk_spec _ hs).imp fun _ _ hs => ?_
  apply hs.of_eq
  simp only [Cost.add_assoc]
  rfl

theorem systemOnSleepWithCpuIdle_spec (hset : chip.setFails = false) (hbusy : chip.busy < 1000 * MS)
    (hs : Resting chip .dark c s) :
    Safe (device chip) (offWatch chip) systemOnSleepWithCpuIdle s fun _ t =>
      Resting chip .dark ((c.add (.cpuIdleCycles 5)).add (.call .dark .dark)) t := by
  simp only [systemOnSleepWithCpuIdle, safe_bind]
  refine (printk_spec .cpuIdle hs).imp fun _ _ hs => ?_
  refine (setLed_spec hset false hs).imp fun _ _ hs => ?_
  rw [Cost.add_assoc] at hs
  apply Safe.repeatM_quiet fun i t => i ≤ 5 ∧ Resting chip .dark (c.add (.cpuIdleCycles i)) t
  · exact ⟨Nat.zero_le 5, hs.of_eq rfl⟩
  · exact fun _ _ _ => trivial
  · intro i t ht
    obtain ⟨hi, ht⟩ := ht
    by_cases hlt : i < 5
    · rw [if_pos hlt, safe_bind]
      apply (cpuIdleCycle_spec hset hbusy i ht).imp
      intro _ u hu
      rw [safe_pure]
      rw [Cost.add_assoc] at hu
      exact ⟨hlt, hu⟩
    · rw [if_neg hlt, safe_pure]
      obtain rfl : i = 5 := Nat.le_antisymm hi (Nat.not_lt.mp hlt)
      exact printk_spec _ ht

theorem systemOffSleep_spec (hs : Resting chip .dark c s)
    (hc : ((c.add (.call .dark .dark)).add (.call .dark .dark)).add (.sleep .dark 10) = bootCost) :
    Safe (device chip) (offWatch chip) systemOffSleep s fun _ _ => False := by
  simp only [systemOffSleep, kMsleep, safe_bind]
  refine (printk_spec .systemOff hs).imp fun _ _ hs => ?_
  refine (cfgSenseSet_spec hs).imp fun _ t ht => ?_
  obtain ⟨ht, since, hsince, hsense⟩ := ht
  rw [safe_lift]
  refine ⟨trivial, fun _ u hu => ?_⟩
  obtain ⟨before, after, v, hlasts, hv, rfl⟩ := hu
  obtain rfl : v = t.pass before := hv
  have hrest := ht.toSpent.sleep hlasts.1 hlasts.2
  rw [hc] at hrest
  rw [pass_pass, safe_lift]
  have hlow := hlasts.1
  refine ⟨⟨⟨hrest, ht.timer⟩, since, hsense, ?_⟩, fun _ _ hoff => ?_⟩
  · dsimp only [System.pass]
    omega
  · obtain ⟨_, _, _, _, hnone, _⟩ := hoff
    exact hnone.elim

theorem powerOn_resting : Resting chip .unset .zero powerOn :=
  ⟨⟨Nat.zero_le _, Nat.zero_le _, Nat.zero_le _, Nat.zero_le _, rfl, rfl⟩, rfl⟩

theorem main_spec (hconfigure : chip.configureFails = false) (hset : chip.setFails = false)
    (hbusy : chip.busy < 1000 * MS) :
    Safe (device chip) (offWatch chip) main powerOn fun _ _ => True := by
  unfold main
  rw [safe_bind]
  refine (printk_spec .newline powerOn_resting).imp fun _ _ hs => ?_
  rw [safe_bind]
  refine (deviceIsReady_spec hs).imp fun ready _ hs => ?_
  cases ready with
  | false =>
    simp only [Bool.false_eq_true, if_false, safe_bind, safe_pure]
    exact (printk_spec .notReady hs).imp fun _ _ _ => trivial
  | true =>
    simp only [if_true, safe_bind]
    refine (startUp_spec hconfigure hset hs).imp fun _ _ hs => ?_
    refine (systemOnSleep_spec hset hs).imp fun _ _ hs => ?_
    refine (kSleep_spec 1000 hs).imp fun _ _ hs => ?_
    refine (systemOnSleepWithCpuIdle_spec hset hbusy hs).imp fun _ _ hs => ?_
    refine (kSleep_spec 1000 hs).imp fun _ _ hs => ?_
    refine (systemOnSleepWithYield_spec hset hs).imp fun _ _ hs => ?_
    refine (kSleep_spec 1000 hs).imp fun _ _ hs => ?_
    exact (systemOffSleep_spec hs rfl).imp fun _ _ hnone => hnone.elim

/-! ## Every run -/

/-- What holds where the CPU idles, and where the system is switched off. -/
structure Sound (chip : Chip) (q : Prog Call ℤ) (s : System) : Prop where
  idle : q.Calls .kCpuIdle → IdlesSafely s
  off : q.Calls .nrfPowerSystemOff → PoweredDown chip s

/-- Calls take no time, sleeps as long as they are to, and an interrupt ends each idle period at once.
Setting a pin up, and setting it, fail as told. -/
def reply (configureFails setFails : Bool) {ρ : Type} : Call ρ → System → Option (ρ × System)
  | .printk _, s => some ((), s)
  | .deviceIsReady, s => some (true, s)
  | .gpioPinConfigure pin flags, s =>
    some (if configureFails then (-5, s) else (0, s.configure pin flags))
  | .gpioPinSet pin value, s => some (if setFails then (-5, s) else (0, s.set pin value))
  | .kSleep ms, s => some ((), s.pass (ms * MS))
  | .kYield, s => some ((), s)
  | .kTimerStart duration, s => some ((), { s with timer := some (s.now + duration * MS) })
  | .kTimerStop, s => some ((), { s with timer := none })
  | .kCpuIdle, s => some ((), s)
  | .nrfGpioCfgSenseSet pinNumber sense, s =>
    some ((), { s with sense := some (pinNumber, sense, s.now) })
  | .nrfPowerSystemOff, _ => none

theorem pass_zero : s.pass 0 = s := by
  simp [System.pass]

theorem answer_of_effect {ρ : Type} {call : Call ρ} {r : ρ} (hlasts : Lasts chip call s 0 0)
    (h : Effect chip call s r t) : (device chip).answer call s r t := by
  refine ⟨0, 0, t, hlasts, ?_, pass_zero.symm⟩
  rw [pass_zero]
  exact h

theorem reply_follows {configureFails setFails : Bool}
    (hconfigure : configureFails = true → chip.configureFails = true)
    (hset : setFails = true → chip.setFails = true) :
    Script.Follows (reply configureFails setFails) (device chip) := by
  intro ρ call s r t h
  refine ⟨s, .refl, ?_⟩
  cases call with
  | gpioPinConfigure pin flags =>
    apply answer_of_effect (Nat.zero_le _)
    cases configureFails with
    | true =>
      cases h
      exact .inr ⟨.inr (hconfigure rfl), by decide, rfl⟩
    | false =>
      cases h
      exact .inl ⟨rfl, rfl⟩
  | gpioPinSet pin value =>
    apply answer_of_effect (Nat.zero_le _)
    cases setFails with
    | true =>
      cases h
      exact .inr ⟨hset rfl, by decide, rfl⟩
    | false =>
      cases h
      exact .inl ⟨rfl, rfl⟩
  | kSleep ms =>
    cases h
    refine ⟨ms * MS, 0, _, ?_, rfl, pass_zero.symm⟩
    dsimp only [Lasts]
    omega
  | kCpuIdle =>
    cases h
    have hlasts : Lasts chip .kCpuIdle s 0 0 := by
      intro e _ hnow
      omega
    exact answer_of_effect hlasts rfl
  | nrfPowerSystemOff => cases h
  | _ =>
    cases h
    exact answer_of_effect (Nat.zero_le _) rfl

set_option maxRecDepth 8000 in
/-- When a call takes so long that the timer has expired, the CPU idles without it. -/
theorem slow_idle (hbusy : ¬ chip.busy < 1000 * MS) : ∃ (q : Prog Call ℤ) (t : System),
    Steps (device chip) (main, powerOn) (q, t) ∧ q.Calls .kCpuIdle ∧ ¬ IdlesSafely t := by
  have hfollows : Script.Follows (reply false false) (device chip) :=
    reply_follows (fun h => by cases h) fun h => by cases h
  have hreach : ∃ (k : Unit → Prog Call ℤ) (s : System),
      Steps (device chip) (main, powerOn) (.call (.kTimerStart 1000) k, s) ∧
        (k ()).Calls .kCpuIdle := ⟨_, _, .of_replay hfollows 22 rfl, _, rfl⟩
  obtain ⟨k, s, hrun, hidle⟩ := hreach
  have hlasts : 0 + chip.busy ≤ chip.busy := Nat.le_of_eq (Nat.zero_add _)
  refine ⟨_, _, hrun.tail (.call ⟨0, chip.busy, _, hlasts, rfl, rfl⟩), hidle, fun hidles => ?_⟩
  obtain ⟨e, he, hnow, -⟩ := hidles
  have he : (s.pass 0).now + 1000 * MS = e := Option.some.inj he
  have hnow : (s.pass 0).now + chip.busy < e := hnow
  omega

set_option maxRecDepth 8000 in
/-- **Switching off.** In every run, the CPU idles only with the timer running, and the system is
switched off as `PoweredDown` says, if and only if no call on the LED's pin fails and every call takes
less than a second. -/
theorem switched_off_iff :
    (∀ (q : Prog Call ℤ) (t : System), Steps (device chip) (main, powerOn) (q, t) →
      Sound chip q t) ↔
        chip.configureFails = false ∧ chip.setFails = false ∧ chip.busy < 1000 * MS := by
  constructor
  · intro h
    refine ⟨eq_false_of_ne_true fun hfails => ?_, eq_false_of_ne_true fun hfails => ?_, ?_⟩
    · have hfollows : Script.Follows (reply true false) (device chip) :=
        reply_follows (fun _ => hfails) fun h => by cases h
      have hoff := (h _ _ (replay_steps hfollows 85 (main, powerOn))).off ⟨_, rfl⟩
      exact absurd hoff.led (by decide)
    · have hfollows : Script.Follows (reply false true) (device chip) :=
        reply_follows (fun h => by cases h) fun _ => hfails
      have hoff := (h _ _ (replay_steps hfollows 85 (main, powerOn))).off ⟨_, rfl⟩
      exact absurd hoff.led (by decide)
    · apply Decidable.byContradiction
      intro hbusy
      obtain ⟨q, t, hrun, hcalls, hidles⟩ := slow_idle hbusy
      exact hidles ((h q t hrun).idle hcalls)
  · intro hok q t hrun
    obtain ⟨hconfigure, hset, hbusy⟩ := hok
    have hmain := main_spec hconfigure hset hbusy
    exact ⟨hmain.atCall hrun, hmain.atCall hrun⟩

end NrfProjects.DeepSleep
