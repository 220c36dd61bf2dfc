import NrfProjects.Interaction.Safety
import NrfProjects.Watchdog.Main

/-! # When the watchdog expires

From one feed to the next lie the rest of a call, a sleep of half the window, a call, and the start of
another. So the watchdog expires before the last feed in some run exactly if the lateness of the
sleep and the three calls can make up the other half, or a feed can fail. After the last feed it
expires at a time that they bound. -/

namespace NrfProjects.Watchdog
set_option autoImplicit false
open Interaction

variable {timing : Timing} {s t : System} {id : ℤ} {i x us : ℕ}

/-- Sleeps are late, and calls long, by so little that each feed is in time. -/
def Prompt (timing : Timing) : Prop := timing.late + 3 * timing.busy < 500 * MS

/-- The longest round of feeding. -/
def round (timing : Timing) : ℕ := 500 * MS + timing.late + 2 * timing.busy

/-- `main` has set the watchdog up. -/
structure Armed (timing : Timing) (id : ℤ) (s : System) : Prop where
  channel : s.channel = some (id, WDT_MAX_WINDOW)
  feeds : s.feeds = 0
  early : s.armedAt ≤ s.now
  late : s.now ≤ s.armedAt + timing.busy
  deadline : s.deadline = some (s.armedAt + 1000 * MS)

/-- `main` has fed the watchdog `i` times, slept after each, and then gone on for `x`. -/
structure Fed (timing : Timing) (id : ℤ) (i x : ℕ) (s : System) : Prop where
  channel : s.channel = some (id, WDT_MAX_WINDOW)
  feeds : s.feeds = i
  early : s.armedAt + 500 * MS * i ≤ s.now
  late : s.now ≤ s.armedAt + round timing * i + 2 * timing.busy + x
  deadline : ∃ d, s.deadline = some d ∧
    (Prompt timing → s.now + 500 * MS ≤ d + timing.late + timing.busy + x) ∧
    s.armedAt + 500 * MS * i + 500 * MS ≤ d ∧
    d ≤ s.armedAt + round timing * (i - 1) + 4 * timing.busy + 1000 * MS

/-- It has just fed the watchdog once more. -/
structure Fresh (timing : Timing) (id : ℤ) (i : ℕ) (s : System) : Prop where
  channel : s.channel = some (id, WDT_MAX_WINDOW)
  feeds : s.feeds = i + 1
  late : s.now ≤ s.armedAt + round timing * i + 4 * timing.busy
  deadline : ∃ fed, s.deadline = some (fed + 1000 * MS) ∧ s.armedAt + 500 * MS * i ≤ fed ∧
    fed ≤ s.now ∧ s.now ≤ fed + timing.busy

/-- It has been fed for the last time. -/
structure Final (timing : Timing) (s : System) : Prop where
  feeds : s.feeds = WDT_FEED_TRIES
  deadline : ∃ d, s.deadline = some d ∧ s.armedAt + 4500 * MS ≤ d ∧
    d ≤ s.armedAt + 4500 * MS + 7 * timing.late + 18 * timing.busy

def Timely (s : System) : Prop := s.expired = true → s.feeds = WDT_FEED_TRIES

theorem expired_of_deadline {d : ℕ} (h : s.deadline = some d) : s.expired = decide (d ≤ s.now) := by
  unfold System.expired
  rw [h]
  rfl

theorem Timely.of_off (h : s.deadline = none) : Timely s := by
  intro hexpired
  unfold System.expired at hexpired
  rw [h] at hexpired
  cases hexpired

theorem Timely.of_before {d : ℕ} (h : s.deadline = some d) (hd : s.now < d) : Timely s := by
  intro hexpired
  rw [expired_of_deadline h, decide_eq_true_eq] at hexpired
  omega

theorem pass_pass (a b : ℕ) : (s.pass a).pass b = s.pass (a + b) := by
  simp only [System.pass, Nat.add_assoc]

/-! ## Time passes -/

theorem Armed.timely (h : Armed timing id s) (hprompt : Prompt timing) : Timely s := by
  have hlate := h.late
  unfold Prompt at hprompt
  exact .of_before h.deadline (by omega)

theorem Armed.fed (h : Armed timing id s) (hus : us ≤ timing.busy) :
    Fed timing id 0 0 (s.pass us) := by
  have hearly := h.early
  have hlate := h.late
  refine ⟨h.channel, h.feeds, ?_, ?_, _, h.deadline, fun hprompt => ?_, ?_, ?_⟩
  · dsimp only [System.pass]
    omega
  · dsimp only [System.pass]
    omega
  · unfold Prompt at hprompt
    dsimp only [System.pass]
    omega
  · dsimp only [System.pass]
    omega
  · dsimp only [System.pass]
    omega

theorem Fed.pass (h : Fed timing id i x s) (us : ℕ) : Fed timing id i (x + us) (s.pass us) := by
  obtain ⟨d, hd, hsoon, hlow, hhigh⟩ := h.deadline
  have hearly := h.early
  have hlate := h.late
  refine ⟨h.channel, h.feeds, ?_, ?_, d, hd, fun hprompt => ?_, hlow, hhigh⟩
  · dsimp only [System.pass]
    omega
  · dsimp only [System.pass]
    omega
  · have hsoon := hsoon hprompt
    dsimp only [System.pass]
    omega

theorem Fed.timely (h : Fed timing id i x s) (hx : x ≤ 2 * timing.busy) (hprompt : Prompt timing) :
    Timely s := by
  obtain ⟨d, hd, hsoon, -⟩ := h.deadline
  have hsoon := hsoon hprompt
  unfold Prompt at hprompt
  exact .of_before hd (by omega)

theorem Fed.final (h : Fed timing id WDT_FEED_TRIES x s) : Final timing s := by
  obtain ⟨d, hd, -, hlow, hhigh⟩ := h.deadline
  unfold WDT_FEED_TRIES at hlow hhigh
  unfold round at hhigh
  exact ⟨h.feeds, d, hd, by omega, by omega⟩

theorem Final.pass (h : Final timing s) (us : ℕ) : Final timing (s.pass us) := ⟨h.feeds, h.deadline⟩

/-- The watchdog is fed at one moment of the call. -/
theorem Fed.fresh {before after : ℕ} (h : Fed timing id i x s) (hx : x ≤ timing.busy)
    (hlasts : before + after ≤ timing.busy) :
    Fresh timing id i (System.pass { s.pass before with
      deadline := some ((s.pass before).now + WDT_MAX_WINDOW * MS), feeds := s.feeds + 1 }
      after) := by
  have hearly := h.early
  have hlate := h.late
  have hfeeds := h.feeds
  refine ⟨h.channel, ?_, ?_, (s.pass before).now, rfl, ?_, ?_, ?_⟩
  · dsimp only [System.pass]
    omega
  · dsimp only [System.pass]
    omega
  · dsimp only [System.pass]
    omega
  · dsimp only [System.pass]
    omega
  · dsimp only [System.pass]
    omega

theorem Fresh.timely (h : Fresh timing id i s) (hus : us ≤ 500 * MS + timing.late)
    (hprompt : Prompt timing) : Timely (s.pass us) := by
  obtain ⟨fed, hd, -, -, hsoon⟩ := h.deadline
  unfold Prompt at hprompt
  have hd : (s.pass us).deadline = some (fed + 1000 * MS) := hd
  apply Timely.of_before hd
  dsimp only [System.pass]
  omega

theorem Fresh.fed (h : Fresh timing id i s) (hlow : 500 * MS ≤ us) (hhigh : us ≤ 500 * MS + timing.late) :
    Fed timing id (i + 1) 0 (s.pass us) := by
  obtain ⟨fed, hd, hearly, hle, hsoon⟩ := h.deadline
  have hlate := h.late
  have hsucc := Nat.mul_add_one (round timing) i
  have hsleeps := Nat.mul_add_one (500 * MS) i
  have hround : round timing = 500 * MS + timing.late + 2 * timing.busy := rfl
  refine ⟨h.channel, h.feeds, ?_, ?_, _, hd, fun _ => ?_, ?_, ?_⟩
  · dsimp only [System.pass]
    omega
  · dsimp only [System.pass]
    omega
  · dsimp only [System.pass]
    omega
  · dsimp only [System.pass]
    omega
  · dsimp only [System.pass]
    rw [Nat.add_sub_cancel]
    omega

/-! ## The calls -/

/-- A call that lets time pass and has no effect. -/
theorem answer_pass {ρ : Type} {c : Call ρ} {r : ρ}
    (hc : ∀ s t, Effect timing c s r t → t = s) (h : (device timing).answer c s r t) :
    ∃ before after, Lasts timing c before after ∧
      (t = s.pass before ∧ t.expired = true ∨ t = s.pass (before + after)) := by
  obtain ⟨-, h⟩ := h
  cases h with
  | @expired before after hlasts h => exact ⟨before, after, hlasts, .inl ⟨rfl, h⟩⟩
  | @done before after u hlasts _ heffect =>
    refine ⟨before, after, hlasts, .inr ?_⟩
    rw [hc _ _ heffect, pass_pass]

theorem printk_pass {m : Message} {r : Unit} (h : (device timing).answer (.printk m) s r t) :
    ∃ us ≤ timing.busy, t = s.pass us := by
  obtain ⟨before, after, hlasts, ⟨rfl, -⟩ | rfl⟩ :=
    answer_pass (c := .printk m) (fun _ _ hu => hu) h
  · exact ⟨before, Nat.le_trans (Nat.le_add_right _ _) hlasts, rfl⟩
  · exact ⟨_, hlasts, rfl⟩

theorem kSleep_pass {ms : ℕ} {r : Unit} (h : (device timing).answer (.kSleep ms) s r t) :
    ∃ us ≤ ms * MS + timing.late, t = s.pass us ∧ (t.expired = false → ms * MS ≤ us) := by
  obtain ⟨before, after, ⟨hlow, hhigh⟩, ⟨rfl, hexpired⟩ | rfl⟩ :=
    answer_pass (c := .kSleep ms) (fun _ _ hu => hu) h
  · refine ⟨before, by omega, rfl, fun hnot => ?_⟩
    rw [hexpired] at hnot
    cases hnot
  · exact ⟨_, hhigh, rfl, fun _ => hlow⟩

/-- Until the watchdog expires, `P` holds, and it does not expire early. -/
structure Going (timing : Timing) (P : System → Prop) (s : System) : Prop where
  going : s.expired = false → P s
  timely : Prompt timing → Timely s

/-- When sleeps and calls are prompt, the watchdog does not expire before the last feed, and `main`
yields only after it. -/
def feedWatch (timing : Timing) : Watch Call System where
  atLoop s := Prompt timing → Timely s
  atCall
    | .kYield, s => Final timing s
    | _, s => Prompt timing → Timely s

theorem feed_fresh {r : ℤ} (h : Fed timing id i x s) (hx : x ≤ timing.busy)
    (hok : timing.feedFails = false) (ha : (device timing).answer (.wdtFeed id) s r t) :
    Going timing (Fresh timing id i) t := by
  obtain ⟨-, ha⟩ := ha
  cases ha with
  | @expired before after hlasts hexpired =>
    have hlasts : before + after ≤ timing.busy := hlasts
    constructor
    · intro hnot
      rw [hexpired] at hnot
      cases hnot
    · exact (h.pass before).timely (by omega)
  | @done before after u hlasts hnot heffect =>
    rcases heffect with ⟨w, hw, -, rfl⟩ | ⟨hfails, -⟩
    · have hchannel : (s.pass before).channel = some (id, WDT_MAX_WINDOW) := h.channel
      rw [hchannel, Option.some.injEq, Prod.mk.injEq] at hw
      obtain ⟨-, rfl⟩ := hw
      have hfresh := h.fresh hx hlasts
      exact ⟨fun _ => hfresh, hfresh.timely (Nat.zero_le _)⟩
    · rcases hfails with hfails | hchannel
      · rw [hok] at hfails
        cases hfails
      · exact absurd h.channel (hchannel _)

theorem feeding_spec (hok : timing.feedFails = false) (hs : Going timing (Fed timing id 0 0) s) :
    Safe (device timing) (feedWatch timing) (feeding id) s fun _ t =>
      Going timing (Fed timing id WDT_FEED_TRIES 0) t := by
  unfold feeding
  apply Safe.repeatM_quiet (fun i t => i ≤ WDT_FEED_TRIES ∧ Going timing (Fed timing id i 0) t)
    ⟨Nat.zero_le _, hs⟩ fun _ _ ht => ht.2.timely
  intro i t ht
  obtain ⟨hi, ht⟩ := ht
  by_cases hlt : i < WDT_FEED_TRIES
  · simp only [if_pos hlt, safe_bind, safe_lift, safe_pure]
    refine ⟨ht.timely, fun _ u hprint => ?_⟩
    have hfed := ht.going hprint.1
    obtain ⟨us, hus, rfl⟩ := printk_pass hprint
    have hfed := hfed.pass us
    rw [Nat.zero_add] at hfed
    refine ⟨hfed.timely (by omega), fun r u hfeed => ?_⟩
    have hfresh := feed_fresh hfed hus hok hfeed
    refine ⟨hfresh.timely, fun _ v hsleep => ?_⟩
    have hfresh := hfresh.going hsleep.1
    obtain ⟨us, hus, rfl, hlow⟩ := kSleep_pass hsleep
    exact ⟨hlt, fun hnot => hfresh.fed (hlow hnot) hus, hfresh.timely hus⟩
  · rw [if_neg hlt, safe_pure]
    obtain rfl : i = WDT_FEED_TRIES := Nat.le_antisymm hi (Nat.not_lt.mp hlt)
    exact ht

/-! ## The whole program -/

/-- The watchdog is not running. -/
structure Off (s : System) : Prop where
  deadline : s.deadline = none
  feeds : s.feeds = 0

theorem Off.timely (h : Off s) : Prompt timing → Timely s := fun _ => .of_off h.deadline

theorem Off.effect {ρ : Type} {c : Call ρ} {r : ρ} (hs : Off s)
    (h : (device timing).answer c s r t) :
    ∃ before after u, Lasts timing c before after ∧ Effect timing c (s.pass before) r u ∧
      t = u.pass after := by
  obtain ⟨-, h⟩ := h
  cases h with
  | @expired before after _ hexpired =>
    have hoff : (s.pass before).deadline = none := hs.deadline
    unfold System.expired at hexpired
    rw [hoff] at hexpired
    cases hexpired
  | @done before after u hlasts _ heffect => exact ⟨before, after, u, hlasts, heffect, rfl⟩

theorem print_off (m : Message) (hs : Off s) :
    Safe (device timing) (feedWatch timing) (liftM (Call.printk m)) s fun _ t => Off t := by
  rw [safe_lift]
  refine ⟨hs.timely, fun _ t ha => ?_⟩
  obtain ⟨us, -, rfl⟩ := printk_pass ha
  exact ⟨hs.deadline, hs.feeds⟩

theorem deviceIsReady_off (hs : Off s) :
    Safe (device timing) (feedWatch timing) (liftM Call.deviceIsReady) s fun _ t => Off t := by
  rw [safe_lift]
  refine ⟨hs.timely, fun _ t ha => ?_⟩
  obtain ⟨before, after, u, -, hu, rfl⟩ := hs.effect ha
  obtain rfl : u = s.pass before := hu
  exact ⟨hs.deadline, hs.feeds⟩

theorem installTimeout_off (cfg : TimeoutCfg) (hs : Off s) :
    Safe (device timing) (feedWatch timing) (liftM (Call.wdtInstallTimeout cfg)) s fun r t =>
      Off t ∧ (0 ≤ r → t.channel = some (r, cfg.windowMax)) := by
  rw [safe_lift]
  refine ⟨hs.timely, fun r t ha => ?_⟩
  obtain ⟨before, after, u, -, hu, rfl⟩ := hs.effect ha
  rcases hu with ⟨-, rfl⟩ | ⟨hneg, rfl⟩
  · exact ⟨⟨hs.deadline, hs.feeds⟩, fun _ => rfl⟩
  · exact ⟨⟨hs.deadline, hs.feeds⟩, fun hpos => absurd hneg (Int.not_lt.mpr hpos)⟩

theorem install_off (hs : Off s) :
    Safe (device timing) (feedWatch timing) install s fun r t =>
      Off t ∧ (0 ≤ r → t.channel = some (r, WDT_MAX_WINDOW)) := by
  unfold install
  rw [safe_bind]
  apply (installTimeout_off wdtConfig hs).imp
  intro r t ht
  by_cases hrejected : r = -ENOTSUP
  · rw [if_pos hrejected, safe_bind]
    apply (print_off _ ht.1).imp
    intro _ u hu
    exact installTimeout_off _ hu
  · rw [if_neg hrejected, safe_pure]
    exact ht

theorem setup_armed (opt : Opt) (hs : Off s) (hchannel : s.channel = some (id, WDT_MAX_WINDOW)) :
    Safe (device timing) (feedWatch timing) (liftM (Call.wdtSetup opt)) s fun err t =>
      err < 0 ∧ Off t ∨ err = 0 ∧ Armed timing id t := by
  rw [safe_lift]
  refine ⟨hs.timely, fun err t ha => ?_⟩
  obtain ⟨before, after, u, hlasts, hu, rfl⟩ := hs.effect ha
  have hlasts : before + after ≤ timing.busy := hlasts
  rcases hu with ⟨c, w, hcw, rfl, rfl⟩ | ⟨herr, rfl⟩
  · have hw : (s.pass before).channel = some (id, WDT_MAX_WINDOW) := hchannel
    rw [hcw, Option.some.injEq, Prod.mk.injEq] at hw
    obtain ⟨rfl, rfl⟩ := hw
    refine .inr ⟨rfl, hcw, hs.feeds, Nat.le_add_right _ _, ?_, rfl⟩
    dsimp only [System.pass]
    omega
  · exact .inl ⟨herr, hs.deadline, hs.feeds⟩

theorem waiting_spec (hs : Final timing s) :
    Safe (device timing) (feedWatch timing) waiting s fun _ _ => False := by
  unfold waiting
  apply Safe.repeatM_quiet (fun _ t => Final timing t) hs fun _ t ht _ _ => ht.feeds
  intro _ t ht
  rw [safe_bind, safe_lift]
  refine ⟨ht, fun _ u hu => ?_⟩
  rw [safe_pure]
  obtain ⟨before, after, -, ⟨rfl, -⟩ | rfl⟩ := answer_pass (c := .kYield) (fun _ _ hu => hu) hu
  · exact ht.pass _
  · exact ht.pass _

/-- From the set-up on. -/
theorem armed_spec (hok : timing.feedFails = false) (hs : Armed timing id s) :
    Safe (device timing) (feedWatch timing) (do
      Call.printk (.feedingTimes WDT_FEED_TRIES)
      feeding id
      Call.printk .waiting
      waiting) s fun _ _ => False := by
  rw [safe_bind, safe_lift]
  refine ⟨hs.timely, fun _ t ht => ?_⟩
  obtain ⟨us, hus, rfl⟩ := printk_pass ht
  have hfed := hs.fed hus
  rw [safe_bind]
  apply (feeding_spec hok ⟨fun _ => hfed, hfed.timely (Nat.zero_le _)⟩).imp
  intro _ t ht
  rw [safe_bind, safe_lift]
  refine ⟨ht.timely, fun _ u hu => ?_⟩
  have hfinal := (ht.going hu.1).final
  obtain ⟨us, -, rfl⟩ := printk_pass hu
  exact waiting_spec (hfinal.pass us)

theorem main_spec (hok : timing.feedFails = false) (hs : Off s) :
    Safe (device timing) (feedWatch timing) main s fun a t => a = 0 ∧ Off t := by
  have hreturn : ∀ (m : Message) (t : System), Off t → Safe (device timing) (feedWatch timing)
      (do Call.printk m; return 0 : Prog Call ℤ) t fun a u => a = 0 ∧ Off u := by
    intro m t ht
    rw [safe_bind]
    apply (print_off m ht).imp
    intro _ u hu
    rw [safe_pure]
    exact ⟨rfl, hu⟩
  unfold main
  rw [safe_bind]
  apply (print_off _ hs).imp
  intro _ t ht
  rw [safe_bind]
  apply (deviceIsReady_off ht).imp
  intro ready t ht
  cases ready with
  | false => exact hreturn _ _ ht
  | true =>
    simp only [if_true, safe_bind]
    apply (install_off ht).imp
    intro r t ht
    by_cases hneg : r < 0
    · rw [if_pos hneg]
      exact hreturn _ _ ht.1
    · have hchannel := ht.2 (Int.not_lt.mp hneg)
      rw [if_neg hneg, safe_bind]
      apply (setup_armed _ ht.1 hchannel).imp
      intro err u hu
      rcases hu with ⟨herr, hoff⟩ | ⟨rfl, harmed⟩
      · rw [if_pos herr]
        exact hreturn _ _ hoff
      · rw [if_neg (Int.lt_irrefl 0)]
        exact (armed_spec hok harmed).imp fun _ _ h => h.elim

/-! ## Every run -/

theorem powerOn_off : Off powerOn := ⟨rfl, rfl⟩

/-- **When the reset comes.** In every run in which no feed fails, once `main` yields it has fed the
watchdog exactly eight times, and the watchdog expires four and a half seconds after it was set up,
or later by no more than seven sleeps are late and eighteen other calls last. Where `main` returns,
it is not running. -/
theorem reset_time {q : Prog Call ℤ} (hok : timing.feedFails = false)
    (h : Steps (device timing) (main, powerOn) (q, t)) :
    (q.Calls .kYield → Final timing t) ∧ ∀ a, q = .ret a → a = 0 ∧ Off t := by
  have hmain := main_spec hok powerOn_off
  constructor
  · intro hc
    exact hmain.atCall h hc
  · intro a ha
    subst ha
    exact hmain.result h

set_option maxRecDepth 8000 in
/-- A run in which every sleep is three milliseconds late and every other call takes two. -/
theorem reset_time_run :
    Final ⟨3000, 2000, false⟩ (replay (reply ⟨3000, 2000, false⟩) 41 (main, powerOn)).2 := by
  have hfollows : Script.Follows (reply ⟨3000, 2000, false⟩) (device ⟨3000, 2000, false⟩) :=
    reply_follows (Nat.le_refl _) (Nat.le_refl _) id
  have hrun := replay_steps hfollows 41 (main, powerOn)
  exact (reset_time rfl hrun).1 ⟨_, rfl⟩

theorem timely_of_prompt {q : Prog Call ℤ} (hprompt : Prompt timing)
    (hok : timing.feedFails = false) (h : Steps (device timing) (main, powerOn) (q, t)) :
    Timely t := by
  have hmain : Safe (device timing) (.always Timely) main powerOn fun _ => Timely := by
    refine (main_spec hok powerOn_off).mono (fun _ ht => ht hprompt) (fun c u hu => ?_)
      fun _ _ hu => .of_off hu.2.deadline
    cases c with
    | kYield => exact fun _ => hu.feeds
    | _ => exact hu hprompt
  exact hmain.always (fun _ _ ht => ht) h

/-! ## Runs in which it expires early -/

/-- Nothing has taken any time yet, and the watchdog is about to be fed for the first time. -/
def firstFeed : System := ⟨0, some (0, WDT_MAX_WINDOW), some (1000 * MS), 0, 0⟩

/-- It has just been fed for the first time. -/
def firstFed : System := { firstFeed with feeds := 1 }

theorem firstFed_expired (us : ℕ) : (firstFed.pass us).expired = decide (1000 * MS ≤ us) := by
  have hdeadline : (firstFed.pass us).deadline = some (1000 * MS) := rfl
  have hnow : (firstFed.pass us).now = us := Nat.zero_add us
  rw [expired_of_deadline hdeadline, hnow]

/-- A call that only lets time pass does so whether or not the watchdog expires in it. -/
theorem pass_step {ρ : Type} {c : Call ρ} {k : ρ → Prog Call ℤ} {r : ρ}
    (hon : ¬ s.expired = true) (hlasts : Lasts timing c us 0)
    (heffect : Effect timing c (s.pass us) r (s.pass us)) :
    Step (device timing) (.call c k, s) (k r, s.pass us) := by
  rw [Bool.not_eq_true] at hon
  cases hpass : (s.pass us).expired with
  | true => exact .call ⟨hon, .expired hlasts hpass⟩
  | false =>
    have ha : Answers timing c s r ((s.pass us).pass 0) := .done hlasts hpass heffect
    exact .call ⟨hon, ha⟩

set_option maxRecDepth 8000 in
/-- From the first feed on, every call takes as long as it may. -/
theorem late_expires (hlate : ¬ Prompt timing) : ∃ (q : Prog Call ℤ) (t : System),
    Steps (device timing) (main, powerOn) (q, t) ∧ t.expired = true ∧ t.feeds = 1 := by
  have hfollows : Script.Follows (reply ⟨0, 0, false⟩) (device timing) :=
    reply_follows (Nat.zero_le _) (Nat.zero_le _) fun h => by cases h
  have hlasts : 0 + timing.busy ≤ timing.busy := Nat.le_of_eq (Nat.zero_add _)
  have hfeed : Answers timing (.wdtFeed 0) firstFeed 0 (firstFed.pass timing.busy) :=
    .done hlasts rfl (.inl ⟨WDT_MAX_WINDOW, rfl, rfl, rfl⟩)
  have hfed := (replay_steps hfollows 7 (main, powerOn)).tail (.call ⟨rfl, hfeed⟩)
  by_cases hfirst : (firstFed.pass timing.busy).expired = true
  · exact ⟨_, _, hfed, hfirst, rfl⟩
  have hsleep : Lasts timing (.kSleep WDG_FEED_INTERVAL) (500 * MS + timing.late) 0 :=
    ⟨Nat.le_add_right _ _, Nat.le_refl _⟩
  have hslept := hfed.tail (pass_step (r := ()) hfirst hsleep rfl)
  by_cases hsecond : ((firstFed.pass timing.busy).pass (500 * MS + timing.late)).expired = true
  · exact ⟨_, _, hslept, hsecond, rfl⟩
  have hbusy : Lasts timing (.printk .feeding) timing.busy 0 := Nat.le_refl _
  have hprinted := (hslept.tail (.enter _ _ _ _)).tail
    (pass_step (r := ()) hsecond hbusy rfl)
  by_cases hthird : (((firstFed.pass timing.busy).pass (500 * MS + timing.late)).pass
      timing.busy).expired = true
  · exact ⟨_, _, hprinted, hthird, rfl⟩
  have hend : ((((firstFed.pass timing.busy).pass (500 * MS + timing.late)).pass
      timing.busy).pass timing.busy).expired = true := by
    unfold Prompt at hlate
    rw [pass_pass, pass_pass, pass_pass, firstFed_expired, decide_eq_true_eq]
    omega
  rw [Bool.not_eq_true] at hthird
  have hfeedBusy : Lasts timing (.wdtFeed 0) timing.busy 0 := Nat.le_refl _
  have hagain : Answers timing (.wdtFeed 0) _ 0 _ := .expired hfeedBusy hend
  exact ⟨_, _, hprinted.tail (.call ⟨hthird, hagain⟩), hend, rfl⟩

set_option maxRecDepth 8000 in
/-- Two feeds fail, and the watchdog expires in the sleep after the second. -/
theorem unfed_expires (hfails : timing.feedFails = true) : ∃ (q : Prog Call ℤ) (t : System),
    Steps (device timing) (main, powerOn) (q, t) ∧ t.expired = true ∧ t.feeds = 2 := by
  have hfollows : Script.Follows (reply ⟨0, 0, true⟩) (device timing) :=
    reply_follows (Nat.zero_le _) (Nat.zero_le _) fun _ => hfails
  have hfed : Steps (device timing) (main, powerOn) (_,
      ⟨500 * MS, some (0, WDT_MAX_WINDOW), some (1000 * MS), 0, 2⟩) :=
    .of_replay hfollows 12 rfl
  have hsleep : Lasts timing (.kSleep WDG_FEED_INTERVAL) (500 * MS) 0 :=
    ⟨Nat.le_refl _, Nat.le_add_right _ _⟩
  exact ⟨_, _, hfed.tail (pass_step (r := ()) nofun hsleep rfl), rfl, rfl⟩

/-- **Fed in time.** No run lets the watchdog expire before the last feed if and only if a sleep is
late, and three other calls last, by less than half a second together, and no feed can fail: a failed
feed goes unnoticed. -/
theorem fed_in_time_iff :
    (∀ (q : Prog Call ℤ) (t : System), Steps (device timing) (main, powerOn) (q, t) →
      t.expired = true → t.feeds = WDT_FEED_TRIES) ↔
        timing.late + 3 * timing.busy < 500 * MS ∧ timing.feedFails = false := by
  constructor
  · intro h
    constructor
    · apply Decidable.byContradiction
      intro hlate
      obtain ⟨q, t, hrun, hexpired, hfeeds⟩ := late_expires hlate
      have hall := h q t hrun hexpired
      rw [hfeeds] at hall
      exact absurd hall (by decide)
    · apply eq_false_of_ne_true
      intro hfails
      obtain ⟨q, t, hrun, hexpired, hfeeds⟩ := unfed_expires hfails
      have hall := h q t hrun hexpired
      rw [hfeeds] at hall
      exact absurd hall (by decide)
  · intro h q t hs
    exact timely_of_prompt h.1 h.2 hs

end NrfProjects.Watchdog
