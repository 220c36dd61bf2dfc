import Mathlib.Data.Int.Notation
import Mathlib.Data.Nat.Notation
import NrfProjects.Interaction.Execution
import NrfProjects.Interaction.Replay

/-! # The watchdog demo (`demos2/watchdog`)

`main` arms a watchdog, feeds it eight times, and then waits for the reset. Every call takes time, in
microseconds, and has its effect at some moment of it; once the watchdog has expired, the device
answers no call any more. -/

namespace NrfProjects.Watchdog
set_option autoImplicit false
open Interaction

def WDT_FEED_TRIES : ℕ := 8

def WDT_MAX_WINDOW : ℕ := 1000

def WDT_MIN_WINDOW : ℕ := 0

def WDG_FEED_INTERVAL : ℕ := 500

def ENOTSUP : ℤ := 134

/-- The microseconds of a millisecond. -/
def MS : ℕ := 1000

inductive Flag
  | resetSoc

inductive Opt
  | pauseHaltedByDbg

def WDT_OPT : Opt := .pauseHaltedByDbg

/-- `hasCallback` is whether the callback is not `NULL`. -/
structure TimeoutCfg where
  flags : Flag
  windowMin : ℕ
  windowMax : ℕ
  hasCallback : Bool

inductive Message
  | banner
  | notReady
  | callbackRejected
  | installError
  | setupError
  | feedingTimes (n : ℕ)
  | feeding
  | waiting

inductive Call : Type → Type
  | printk (m : Message) : Call Unit
  | deviceIsReady : Call Bool
  | wdtInstallTimeout (cfg : TimeoutCfg) : Call ℤ
  | wdtSetup (opt : Opt) : Call ℤ
  | wdtFeed (channelId : ℤ) : Call ℤ
  | kSleep (ms : ℕ) : Call Unit
  | kYield : Call Unit

/-! ## The program -/

def wdtConfig : TimeoutCfg where
  flags := .resetSoc
  windowMin := WDT_MIN_WINDOW
  windowMax := WDT_MAX_WINDOW
  hasCallback := false

/-- A driver that rejects the callback is asked again without one. -/
def install : Prog Call ℤ := do
  let wdtChannelId ← Call.wdtInstallTimeout wdtConfig
  if wdtChannelId = -ENOTSUP then
    Call.printk .callbackRejected
    return ← Call.wdtInstallTimeout { wdtConfig with hasCallback := false }
  return wdtChannelId

def feeding (wdtChannelId : ℤ) : Prog Call Unit := Prog.repeatM (0 : ℕ) fun i => do
  if i < WDT_FEED_TRIES then
    Call.printk .feeding
    -- the result is not looked at
    let _ ← Call.wdtFeed wdtChannelId
    Call.kSleep WDG_FEED_INTERVAL
    return .inl (i + 1)
  return .inr ()

def waiting : Prog Call ℤ := Prog.repeatM () fun _ => do
  Call.kYield
  return .inl ()

def main : Prog Call ℤ := do
  Call.printk .banner
  unless ← Call.deviceIsReady do
    Call.printk .notReady
    return 0
  let wdtChannelId ← install
  if wdtChannelId < 0 then
    Call.printk .installError
    return 0
  let err ← Call.wdtSetup WDT_OPT
  if err < 0 then
    Call.printk .setupError
    return 0
  Call.printk (.feedingTimes WDT_FEED_TRIES)
  feeding wdtChannelId
  Call.printk .waiting
  waiting

/-! ## The watchdog beside it -/

/-- How much longer than asked a sleep may take, how long any other call may take, and whether
feeding may fail. -/
structure Timing where
  late : ℕ
  busy : ℕ
  feedFails : Bool

structure System where
  now : ℕ
  /-- The installed channel, with its window in milliseconds. -/
  channel : Option (ℤ × ℕ)
  /-- When the watchdog expires, once it is set up. -/
  deadline : Option ℕ
  /-- Two records that the code does not read: when it was set up, and the calls of `wdt_feed`. -/
  armedAt : ℕ
  feeds : ℕ

def System.expired (s : System) : Bool := s.deadline.any (· ≤ s.now)

def System.pass (s : System) (us : ℕ) : System := { s with now := s.now + us }

/-- How long a call may take before its effect and after it. -/
def Lasts (timing : Timing) : {ρ : Type} → Call ρ → ℕ → ℕ → Prop
  | _, .kSleep ms, before, after =>
    ms * MS ≤ before + after ∧ before + after ≤ ms * MS + timing.late
  | _, _, before, after => before + after ≤ timing.busy

/-- What a call does. -/
def Effect (timing : Timing) : {ρ : Type} → Call ρ → System → ρ → System → Prop
  | _, .wdtInstallTimeout cfg, s, r, t =>
    0 ≤ r ∧ t = { s with channel := some (r, cfg.windowMax) } ∨ r < 0 ∧ t = s
  | _, .wdtSetup _, s, r, t =>
    (∃ c w, s.channel = some (c, w) ∧ r = 0 ∧
      t = { s with deadline := some (s.now + w * MS), armedAt := s.now }) ∨ r < 0 ∧ t = s
  | _, .wdtFeed id, s, r, t =>
    (∃ w, s.channel = some (id, w) ∧ r = 0 ∧
      t = { s with deadline := some (s.now + w * MS), feeds := s.feeds + 1 }) ∨
    (timing.feedFails = true ∨ ∀ w, s.channel ≠ some (id, w)) ∧ r < 0 ∧
      t = { s with feeds := s.feeds + 1 }
  | _, _, s, _, t => t = s

/-- A call in which the watchdog expires before the effect has none. -/
inductive Answers (timing : Timing) {ρ : Type} (c : Call ρ) (s : System) (r : ρ) : System → Prop
  | expired {before after : ℕ} (hlasts : Lasts timing c before after)
      (h : (s.pass before).expired = true) : Answers timing c s r (s.pass before)
  | done {before after : ℕ} {t : System} (hlasts : Lasts timing c before after)
      (h : (s.pass before).expired = false) (heffect : Effect timing c (s.pass before) r t) :
      Answers timing c s r (t.pass after)

def device (timing : Timing) : Device Call System where
  answer c s r t := s.expired = false ∧ Answers timing c s r t
  move _ _ := False

instance (timing : Timing) : (device timing).Quiet := ⟨fun _ _ h => h⟩

/-- Nothing has been installed yet. -/
def powerOn : System := ⟨0, none, none, 0, 0⟩

/-! ## Runs of the device -/

/-- What the calls do if they succeed, and if feeding fails where it may. -/
def effect (timing : Timing) {ρ : Type} : Call ρ → System → Option (ρ × System)
  | .printk _, s => some ((), s)
  | .deviceIsReady, s => some (true, s)
  | .wdtInstallTimeout cfg, s => some (0, { s with channel := some (0, cfg.windowMax) })
  | .wdtSetup _, s => s.channel.map fun x =>
    (0, { s with deadline := some (s.now + x.2 * MS), armedAt := s.now })
  | .wdtFeed id, s =>
    if timing.feedFails then some (-5, { s with feeds := s.feeds + 1 })
    else
      match s.channel with
      | some (c, w) =>
        if c = id then some (0, { s with deadline := some (s.now + w * MS), feeds := s.feeds + 1 })
        else none
      | none => none
  | .kSleep _, s => some ((), s)
  | .kYield, _ => none

def longest (timing : Timing) {ρ : Type} : Call ρ → ℕ
  | .kSleep ms => ms * MS + timing.late
  | _ => timing.busy

/-- Every call takes as long as it may, up to its effect. -/
def reply (timing : Timing) {ρ : Type} (c : Call ρ) (s : System) : Option (ρ × System) :=
  if s.expired || (s.pass (longest timing c)).expired then none
  else effect timing c (s.pass (longest timing c))

variable {timing timing' : Timing}

theorem effect_follows {ρ : Type} {c : Call ρ} {s t : System} {r : ρ}
    (hfails : timing'.feedFails = true → timing.feedFails = true)
    (h : effect timing' c s = some (r, t)) : Effect timing c s r t := by
  cases c with
  | printk | deviceIsReady | kSleep =>
    cases h
    rfl
  | wdtInstallTimeout cfg =>
    cases h
    exact .inl ⟨Int.le_refl 0, rfl⟩
  | wdtSetup opt =>
    obtain ⟨x, hx, heq⟩ := Option.map_eq_some_iff.mp h
    cases heq
    exact .inl ⟨x.1, x.2, hx, rfl, rfl⟩
  | wdtFeed id =>
    simp only [effect] at h
    split at h
    · next hfeed =>
      cases h
      exact .inr ⟨.inl (hfails hfeed), by decide, rfl⟩
    · split at h
      · next c w hchannel =>
        split at h
        · next heq =>
          cases h
          subst heq
          exact .inl ⟨w, hchannel, rfl, rfl⟩
        · cases h
      · cases h
  | kYield => cases h

/-- So it does beside a device that may be as late and as slow, and fail as well. -/
theorem reply_follows (hlate : timing'.late ≤ timing.late) (hbusy : timing'.busy ≤ timing.busy)
    (hfails : timing'.feedFails = true → timing.feedFails = true) :
    Script.Follows (reply timing') (device timing) := by
  intro ρ c s r t h
  refine ⟨s, .refl, ?_⟩
  have hlasts : Lasts timing c (longest timing' c) 0 := by
    cases c with
    | kSleep ms =>
      dsimp only [Lasts, longest]
      omega
    | _ => exact hbusy
  simp only [reply] at h
  split at h
  · cases h
  · next hexpired =>
    rw [Bool.or_eq_true, not_or, Bool.not_eq_true, Bool.not_eq_true] at hexpired
    exact ⟨hexpired.1, .done hlasts hexpired.2 (effect_follows hfails h)⟩

end NrfProjects.Watchdog
