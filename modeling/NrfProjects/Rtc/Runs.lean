import NrfProjects.Interaction.Calls
import NrfProjects.Interaction.Replay
import NrfProjects.Rtc.Carry

/-! # What the clock prints over a whole run

`main` prints once and sleeps for at least a second, again and again. Until the seconds since the
start no longer fit an `int`, which takes sixty-eight years, the lines are for strictly increasing
seconds, each is what was carried over at its own moment, and no `int` overflows. -/

namespace NrfProjects.Rtc
set_option autoImplicit false
open Interaction Calendar

/-- The seconds from one uptime to another. -/
def seconds (start now : ℤ) : ℕ := ((now - start) / 1000).toNat

/-- The lines printed since `start`, with the second each was printed at: in order, each before
`limit`, and each as it is carried over. -/
structure Lines (limit : ℕ) (lines : List (ℕ × DateTime)) : Prop where
  increasing : lines.Pairwise fun a b => a.1 < b.1
  past : ∀ l ∈ lines, l.1 < limit
  carried : ∀ l ∈ lines, Carried startTime.date l.1 l.2

/-- The console after the set-up has printed `first`. -/
def Printed (first : List Message) (start : ℤ) (limit : ℕ) (s : System) : Prop :=
  start ≤ s.uptime ∧ ∃ lines, Lines limit lines ∧
    s.printed = first ++ lines.map fun l => dateMessage l.2

/-- The last line is for the present second, that of the uptime last read. -/
def Shown (first : List Message) (start : ℤ) (s : System) : Prop :=
  start ≤ s.uptime ∧ ∃ (lines : List (ℕ × DateTime)) (d : DateTime),
    Lines (seconds start s.uptime + 1) (lines ++ [(seconds start s.uptime, d)]) ∧
      s.printed = first ++ (lines ++ [(seconds start s.uptime, d)]).map fun l => dateMessage l.2

/-- The seconds since the start still fit an `int`. -/
def Fits (start : ℤ) (s : System) : Prop := (s.uptime - start) / 1000 ≤ INT_MAX

variable {first : List Message} {start : ℤ} {s t : System}

theorem Lines.nil (limit : ℕ) : Lines limit [] := ⟨.nil, nofun, nofun⟩

theorem Lines.snoc {limit : ℕ} {lines : List (ℕ × DateTime)} {d : DateTime} (h : Lines limit lines)
    (hd : Carried startTime.date limit d) : Lines (limit + 1) (lines ++ [(limit, d)]) := by
  refine ⟨?_, fun l hl => ?_, fun l hl => ?_⟩
  · rw [List.pairwise_append]
    refine ⟨h.increasing, List.pairwise_singleton _ _, fun a ha b hb => ?_⟩
    obtain rfl := List.mem_singleton.mp hb
    exact h.past a ha
  · rcases List.mem_append.mp hl with hl | hl
    · exact Nat.lt_succ_of_lt (h.past l hl)
    · obtain rfl := List.mem_singleton.mp hl
      exact Nat.lt_succ_self _
  · rcases List.mem_append.mp hl with hl | hl
    · exact h.carried l hl
    · obtain rfl := List.mem_singleton.mp hl
      exact hd

theorem Lines.mono {limit limit' : ℕ} {lines : List (ℕ × DateTime)} (h : Lines limit lines)
    (hle : limit ≤ limit') : Lines limit' lines :=
  ⟨h.increasing, fun l hl => Nat.lt_of_lt_of_le (h.past l hl) hle, h.carried⟩

/-- A second later, the present second is a new one. -/
theorem Shown.later {later : ℤ} (h : Shown first start s) (hlater : s.uptime + 1000 ≤ later) :
    Printed first start (seconds start later) { s with uptime := later } := by
  obtain ⟨hstart, lines, d, hlines, hprinted⟩ := h
  refine ⟨by dsimp only; omega, _, hlines.mono ?_, hprinted⟩
  unfold seconds
  omega

/-! ## One line -/

/-- What the set-up may have printed. -/
def SetUp (first : List Message) : Prop := first = [] ∨ ∃ ret, first = [.cannotWrite ret]

/-- While the seconds fit, `main` is about to sleep only with the present second on the console, and
no `int` overflows. -/
def clockWatch (start : ℤ) : Watch Call System where
  atLoop _ := True
  atCall
    | .kSleep _, s => Fits start s → ∃ first, SetUp first ∧ Shown first start s
    | .overflow, s => ¬ Fits start s
    | _, _ => True

/-- A call other than sleeping. -/
def awake {ρ : Type} : Call ρ → Prop
  | .kSleep _ => False
  | _ => True

theorem signed_only (min max n : ℤ) : (signed min max n).Only awake := by
  unfold signed
  apply Prog.Only.ite (Prog.only_pure _)
  exact Prog.Only.seq (Prog.only_lift (c := Call.overflow) trivial) fun e => nomatch e

theorem carry_only (limit low high : ℤ) : (carry limit low high).Only awake := by
  apply Prog.Only.repeatM
  intro x
  apply Prog.Only.ite _ (Prog.only_pure _)
  apply Prog.Only.seq (signed_only _ _ _)
  intro low
  exact Prog.Only.seq (signed_only _ _ _) fun _ => Prog.only_pure _

theorem carriedTime_only (g : Statics) : (carriedTime g).Only awake := by
  unfold carriedTime
  apply Prog.Only.seq (Prog.only_lift (c := Call.kUptimeGet) trivial)
  intro uptime
  apply Prog.Only.seq (signed_only _ _ _)
  intro elapsedMs
  apply Prog.Only.seq (signed_only _ _ _)
  intro tmSec
  apply Prog.Only.seq (carry_only _ _ _)
  intro x
  apply Prog.Only.seq (carry_only _ _ _)
  intro y
  exact Prog.Only.seq (carry_only _ _ _) fun z => Prog.only_pure _

theorem getDateTime_only (g : Statics) : (getDateTime g).Only awake := by
  unfold getDateTime
  apply Prog.Only.seq (carriedTime_only g)
  intro tm
  apply Prog.Only.seq (signed_only _ _ _)
  intro year
  apply Prog.Only.seq (signed_only _ _ _)
  intro mon
  exact Prog.Only.seq (Prog.only_lift (c := Call.printk _) trivial) fun _ => Prog.only_pure _

theorem answer_awake {ρ : Type} {c : Call ρ} {r : ρ} (hc : awake c)
    (ha : device.answer c s r t) : t.uptime = s.uptime := by
  cases c with
  | kSleep ms => exact hc.elim
  | overflow => exact ha.elim
  | deviceIsReady | rtcSetTime | printk =>
    obtain rfl := ha
    rfl
  | kUptimeGet =>
    obtain ⟨-, rfl⟩ := ha
    rfl

/-- One call of `get_date_time` puts the present second on the console. -/
theorem getDateTime_shown (hs : Printed first start (seconds start s.uptime) s)
    (hfits : Fits start s) :
    Safe device (clockWatch start) (getDateTime ⟨startTime, start⟩) s fun ret t =>
      ret = 0 ∧ Shown first start t := by
  have hvalid : startTime.date.Valid :=
    ⟨by decide, by decide, by decide, by decide, by decide⟩
  have hyear : INT_MIN ≤ startTime.date.year ∧ startTime.date.year ≤ INT_MAX := by decide
  obtain ⟨hstart, lines, hlines, hprinted⟩ := hs
  have hzero : startTime.tmSec = 0 := rfl
  have hreturns := getDateTime_returns (g := ⟨startTime, start⟩) (s := s) hvalid hyear
    (by dsimp only; omega) (by rw [hzero, Int.zero_add]; exact hfits)
  have hawake := (getDateTime_only ⟨startTime, start⟩).keeps (D := device)
    (I := fun t => t.uptime = s.uptime) (fun c t r u hc ht ha => (answer_awake hc ha).trans ht)
    (fun _ _ hm => (Device.Quiet.still _ _ hm).elim) rfl
  apply (hreturns.safe.and hawake).mono
  · intro t _
    trivial
  · intro ρ c t hc
    obtain ⟨⟨-, r, u, ha⟩, hc, -⟩ := hc
    cases c with
    | kSleep ms => exact hc.elim
    | overflow => exact r.elim
    | _ => trivial
  · intro ret t ht
    obtain ⟨⟨hret, d, hd, hcarried⟩, huptime⟩ := ht
    refine ⟨hret, by omega, lines, d, ?_, ?_⟩
    · rw [huptime]
      exact hlines.snoc hcarried
    · rw [hd, hprinted, List.map_append, List.append_assoc]
      rfl

/-! ## The loop -/

/-- One round of the loop in `main`. -/
def clockRound (g : Statics) : Prog Call (Unit ⊕ ℤ) := do
  if (← getDateTime g) = 0 then
    Call.kSleep 1000
    return .inl ()
  return .inr 0

/-- A call that does not sleep for a negative time. -/
def forward {ρ : Type} : Call ρ → Prop
  | .kSleep ms => 0 ≤ ms
  | _ => True

theorem awake.forward {ρ : Type} (c : Call ρ) (h : awake c) : forward c := by
  cases c with
  | kSleep ms => exact h.elim
  | _ => trivial

theorem clockRound_late (g : Statics) (hs : ¬ Fits start s) :
    Safe device (clockWatch start) (clockRound g) s fun _ t => ¬ Fits start t := by
  have honly : (clockRound g).Only forward := by
    unfold clockRound
    apply Prog.Only.seq ((getDateTime_only g).mono awake.forward)
    intro ret
    apply Prog.Only.ite _ (Prog.only_pure _)
    have hsleep : forward (Call.kSleep 1000) := by
      show (0 : ℤ) ≤ 1000
      decide
    exact Prog.Only.seq (Prog.only_lift hsleep) fun _ => Prog.only_pure _
  have hkeeps := honly.keeps (D := device) (I := fun t => ¬ Fits start t) ?_
    (fun _ _ hm => (Device.Quiet.still _ _ hm).elim) hs
  · apply hkeeps.mono
    · intro t _
      trivial
    · intro ρ c t hc
      cases c with
      | kSleep ms => exact fun hfits => absurd hfits hc.2
      | overflow => exact hc.2
      | _ => trivial
    · exact fun _ _ ht => ht
  · intro ρ c t r u hc ht ha
    cases c with
    | kSleep ms =>
      obtain ⟨later, hlater, rfl⟩ := ha
      have hms : 0 ≤ ms := hc
      unfold Fits at ht ⊢
      dsimp only
      omega
    | overflow => exact ha.elim
    | deviceIsReady | rtcSetTime | printk =>
      obtain rfl := ha
      exact ht
    | kUptimeGet =>
      obtain ⟨-, rfl⟩ := ha
      exact ht

/-- Between two rounds, while the seconds fit. -/
def Round (first : List Message) (start : ℤ) (s : System) : Prop :=
  Fits start s → Printed first start (seconds start s.uptime) s

theorem clockRound_safe (hfirst : SetUp first) (hs : Round first start s) :
    Safe device (clockWatch start) (clockRound ⟨startTime, start⟩) s fun x t =>
      x.elim (fun _ => Round first start t) fun _ => True := by
  by_cases hfits : Fits start s
  · unfold clockRound
    rw [safe_bind]
    apply (getDateTime_shown (hs hfits) hfits).imp
    intro ret t ht
    obtain ⟨rfl, ht⟩ := ht
    rw [if_pos rfl, safe_bind, safe_lift]
    refine ⟨fun _ => ⟨first, hfirst, ht⟩, fun _ u hu => ?_⟩
    obtain ⟨later, hlater, rfl⟩ := hu
    rw [safe_pure]
    exact fun _ => ht.later hlater
  · apply (clockRound_late _ hfits).imp
    intro x t ht
    cases x with
    | inl _ => exact fun hfits' => absurd hfits' ht
    | inr _ => trivial

theorem main_safe (hs : s.printed = []) :
    Safe device (clockWatch s.uptime) main s fun _ _ => True := by
  have hloop : ∀ (first : List Message) (t : System), SetUp first → t.uptime = s.uptime →
      t.printed = first → Safe device (clockWatch s.uptime)
        (Prog.repeatM () fun _ => clockRound ⟨startTime, s.uptime⟩) t fun _ _ => True := by
    intro first t hfirst huptime hprinted
    apply Safe.repeatM_quiet (fun _ u => Round first s.uptime u) _ (fun _ _ _ => trivial)
      fun _ u hu => clockRound_safe hfirst hu
    intro _
    refine ⟨Int.le_of_eq huptime.symm, [], .nil _, ?_⟩
    rw [hprinted, List.map_nil, List.append_nil]
  have hset : Safe device (clockWatch s.uptime) setDateTime s fun x t =>
      x.2 = ⟨startTime, s.uptime⟩ ∧ t.uptime = s.uptime ∧ SetUp t.printed := by
    unfold setDateTime
    simp only [safe_bind, safe_lift]
    refine ⟨trivial, ?_⟩
    rintro uptime t ⟨rfl, rfl⟩
    refine ⟨trivial, ?_⟩
    rintro ret u rfl
    split_ifs
    · rw [safe_bind, safe_lift]
      refine ⟨trivial, ?_⟩
      rintro _ v rfl
      rw [safe_pure]
      refine ⟨rfl, rfl, .inr ⟨ret, ?_⟩⟩
      dsimp only
      rw [hs, List.nil_append]
    · rw [safe_pure]
      exact ⟨rfl, rfl, .inl hs⟩
  unfold main
  rw [safe_bind, safe_lift]
  refine ⟨trivial, ?_⟩
  rintro ready t rfl
  cases ready with
  | false =>
    simp only [Bool.false_eq_true, if_false, safe_bind, safe_lift, safe_pure]
    exact ⟨trivial, fun _ _ _ => trivial⟩
  | true =>
    simp only [if_true, safe_bind]
    apply hset.imp
    intro x u hu
    obtain ⟨hg, huptime, hprinted⟩ := hu
    obtain ⟨ret, g⟩ := x
    obtain rfl : g = _ := hg
    exact hloop _ u hprinted huptime rfl

/-- **The clock goes forward.** In every run, until the seconds since the start no longer fit an
`int`: no `int` overflows, and whenever `main` is about to sleep, the console holds one line for each
of strictly increasing seconds, the last one the present, each carried over exactly. -/
theorem clock_forward {q : Prog Call ℤ} (hs : s.printed = [])
    (h : Steps device (main, s) (q, t)) (hfits : (t.uptime - s.uptime) / 1000 ≤ INT_MAX) :
    ¬ q.Calls .overflow ∧ (q.Calls (.kSleep 1000) →
      ∃ (first : List Message) (lines : List (ℕ × DateTime)) (d : DateTime),
        SetUp first ∧ (lines ++ [(seconds s.uptime t.uptime, d)]).Pairwise (fun a b => a.1 < b.1) ∧
          (∀ l ∈ lines ++ [(seconds s.uptime t.uptime, d)], Carried startTime.date l.1 l.2) ∧
            t.printed = first ++
              (lines ++ [(seconds s.uptime t.uptime, d)]).map fun l => dateMessage l.2) := by
  constructor
  · intro hc
    exact (main_safe hs).atCall h hc hfits
  · intro hc
    obtain ⟨first, hfirst, -, lines, d, hlines, hprinted⟩ := (main_safe hs).atCall h hc hfits
    exact ⟨first, lines, d, hfirst, hlines.increasing, hlines.carried, hprinted⟩

/-! ## Two seconds -/

/-- The set-up succeeds, and the first sleep takes a little longer than a second. -/
def reply : Script Call System := fun c s =>
  match c with
  | .deviceIsReady => some (true, s)
  | .kUptimeGet => some (s.uptime, s)
  | .rtcSetTime _ => some (0, s)
  | .kSleep ms => if s.uptime = 0 then some ((), { s with uptime := ms + 1 }) else none
  | .printk m => some ((), { s with printed := s.printed ++ [m] })
  | .overflow => none

theorem reply_follows : reply.Follows device := by
  intro ρ c s r t h
  refine ⟨s, .refl, ?_⟩
  cases c with
  | kSleep ms =>
    simp only [reply] at h
    split_ifs at h with huptime
    cases h
    exact ⟨ms + 1, by omega, rfl⟩
  | overflow => cases h
  | deviceIsReady | rtcSetTime | printk =>
    cases h
    rfl
  | kUptimeGet =>
    cases h
    exact ⟨rfl, rfl⟩

/-- At the second sleep there are two lines, for the seconds 0 and 1. -/
theorem clock_forward_second :
    ∃ (first : List Message) (lines : List (ℕ × DateTime)) (d : DateTime),
      SetUp first ∧ (lines ++ [((1 : ℕ), d)]).Pairwise (fun a b => a.1 < b.1) ∧
        (∀ l ∈ lines ++ [((1 : ℕ), d)], Carried startTime.date l.1 l.2) ∧
          (replay reply 40 (main, ⟨0, []⟩)).2.printed =
            first ++ (lines ++ [((1 : ℕ), d)]).map fun l => dateMessage l.2 :=
  (clock_forward rfl (replay_steps reply_follows 40 (main, ⟨0, []⟩)) (by decide)).2 ⟨_, rfl⟩

end NrfProjects.Rtc
