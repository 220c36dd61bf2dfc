import NrfProjects.Calendar.Gregorian
import NrfProjects.Interaction.Returns
import NrfProjects.Rtc.Main

/-! # The carried time is right to the end of the month -/

namespace NrfProjects.Rtc
set_option autoImplicit false
open Interaction Calendar

variable {s t : System} {n : ℤ}

theorem signed_returns {min max : ℤ} {R : ℤ → System → Prop} (h : min ≤ n ∧ n ≤ max) (hR : R n s) :
    Returns device .none R (signed min max n) s := by
  unfold signed
  rw [if_pos h, returns_pure]
  exact hR

/-- Between two rounds: nothing has got lost of `low` and `high`. -/
structure Carrying (limit low high : ℤ) (x : ℤ × ℤ) : Prop where
  rest : x.1 % limit = low % limit
  carried : x.2 + x.1 / limit = high + low / limit
  nonneg : 0 ≤ x.1
  le : x.1 ≤ low
  ge : high ≤ x.2

theorem Carrying.round {limit low high : ℤ} {x : ℤ × ℤ} (h : Carrying limit low high x)
    (hlimit : 0 < limit) (hge : x.1 ≥ limit) : Carrying limit low high (x.1 - limit, x.2 + 1) := by
  have hdiv : (x.1 - limit) / limit = x.1 / limit - 1 := by
    have hsub := Int.sub_mul_ediv_right x.1 1 (c := limit) (by omega)
    rwa [Int.one_mul] at hsub
  have hrest := h.rest
  have hcarried := h.carried
  have hle := h.le
  have hlower := h.ge
  exact ⟨by rw [Int.sub_emod_right, hrest], by dsimp only; omega, by dsimp only; omega,
    by dsimp only; omega, by dsimp only; omega⟩

/-- The loop ends, and divides with remainder. -/
theorem carry_returns {limit low high : ℤ} {R : ℤ × ℤ → System → Prop} (hlimit : 0 < limit)
    (hlow : 0 ≤ low) (hmax : low ≤ INT_MAX) (hhigh : INT_MIN ≤ high)
    (hsum : high + low / limit ≤ INT_MAX) (hR : R (low % limit, high + low / limit) s) :
    Returns device .none R (carry limit low high) s := by
  have hmin : INT_MIN ≤ 0 := by decide
  let left : (ℤ × ℤ) × System → ℕ := fun x => x.1.1.toNat
  apply Returns.repeatM (fun x u => Carrying limit low high x ∧ u = s) (measure left).wf
  · exact ⟨⟨rfl, rfl, hlow, Int.le_refl _, Int.le_refl _⟩, rfl⟩
  intro x t u hx hm
  obtain ⟨hx, rfl⟩ := hx
  obtain rfl := hm.eq
  refine ⟨trivial, ?_⟩
  by_cases hge : x.1 ≥ limit
  · have hround := hx.round hlimit hge
    have hdiv := Int.ediv_nonneg hround.nonneg (Int.le_of_lt hlimit)
    obtain ⟨-, hcarried, hnonneg, hle, hlower⟩ := hround
    dsimp only at hdiv hcarried hnonneg hle hlower
    rw [if_pos hge, returns_bind]
    apply signed_returns (by omega)
    rw [returns_bind]
    apply signed_returns (by omega)
    rw [returns_pure]
    refine ⟨⟨hx.round hlimit hge, rfl⟩, ?_⟩
    show (x.1 - limit).toNat < x.1.toNat
    omega
  · have hlt : x.1 < limit := Int.not_le.mp hge
    obtain ⟨hrest, hcarried, hnonneg, -, -⟩ := hx
    have hdiv : x.1 / limit = 0 := Int.ediv_eq_zero_of_lt hnonneg hlt
    have hmod : x.1 % limit = x.1 := Int.emod_eq_of_lt hnonneg hlt
    have heq : x = (low % limit, high + low / limit) := by
      apply Prod.ext
      · rw [← hrest, hmod]
      · rw [← hcarried, hdiv, Int.add_zero]
    rw [if_neg hge, returns_pure]
    exact heq ▸ hR

/-! ## The printed date and time -/

/-- The date and time that the fields stand for. -/
def RtcTime.date (tm : RtcTime) : DateTime :=
  ⟨tm.tmYear + 1900, tm.tmMon + 1, tm.tmMday, tm.tmHour, tm.tmMin, tm.tmSec⟩

def dateMessage (d : DateTime) : Message :=
  .dateTime d.year d.month d.day d.hour d.minute d.second

/-- What is printed `n` seconds after the clock was set to `init`. -/
structure Carried (init : DateTime) (n : ℕ) (d : DateTime) : Prop where
  year : d.year = init.year
  month : d.month = init.month
  hour : 0 ≤ d.hour ∧ d.hour < 24
  minute : 0 ≤ d.minute ∧ d.minute < 60
  second : 0 ≤ d.second ∧ d.second < 60
  sum : d.day * 86400 + d.secondOfDay = init.day * 86400 + init.secondOfDay + n
  true_iff : d = init.after n ↔
    init.day + (init.secondOfDay + n) / 86400 ≤ monthLength init.year init.month

theorem carried_clock {init : DateTime} (h : init.Valid) (n : ℕ) :
    Carried init n (.clock init.year init.month init.day (init.secondOfDay + n)) := by
  refine ⟨rfl, rfl, ?_, ?_, ?_, ?_, ?_⟩
  · dsimp only [DateTime.clock]
    omega
  · dsimp only [DateTime.clock]
    omega
  · dsimp only [DateTime.clock]
    omega
  · simp only [DateTime.clock, DateTime.secondOfDay]
    omega
  · rw [eq_comm]
    exact h.after_eq_clock_iff n

/-- The three carries are the division of the seconds of the day. -/
theorem clock_eq {init : DateTime} {x min hour : ℤ} (hmin : min = init.minute + x / 60)
    (hhour : hour = init.hour + min / 60) (hx : x = init.second + n) :
    DateTime.clock init.year init.month init.day (init.secondOfDay + n) =
      ⟨init.year, init.month, init.day + hour / 24, hour % 24, min % 60, x % 60⟩ := by
  simp only [DateTime.clock, DateTime.secondOfDay, DateTime.mk.injEq, true_and]
  omega

theorem toInt_of_range (h : INT_MIN ≤ n ∧ n ≤ INT_MAX) : toInt n = n := by
  obtain ⟨hmin, hmax⟩ := h
  unfold INT_MIN at hmin
  unfold INT_MAX at hmax
  apply Int.bmod_eq_of_le_mul_two
  · omega
  · omega

/-- The three loops end without overflow. -/
theorem carriedTime_returns {g : Statics} (hvalid : g.initialTime.date.Valid)
    (helapsed : 0 ≤ s.uptime - g.bootTimeMs)
    (hmax : g.initialTime.tmSec + (s.uptime - g.bootTimeMs) / 1000 ≤ INT_MAX) :
    Returns device .none (fun tm u => u = s ∧
        Carried g.initialTime.date ((s.uptime - g.bootTimeMs) / 1000).toNat tm.date)
      (carriedTime g) s := by
  have hint : INT_MAX = 2147483647 := rfl
  have hint' : INT_MIN = -2147483648 := rfl
  have hcarried := carried_clock hvalid ((s.uptime - g.bootTimeMs) / 1000).toNat
  obtain ⟨hmonth, hday, hhour, hminute, hsecond⟩ := hvalid
  dsimp only [RtcTime.date] at hmonth hday hhour hminute hsecond
  have hlen := monthLength_le (g.initialTime.tmYear + 1900) (g.initialTime.tmMon + 1)
  unfold carriedTime
  rw [returns_bind, returns_lift]
  refine ⟨trivial, ⟨_, _, rfl, rfl⟩, fun uptime u hu => ?_⟩
  obtain ⟨rfl, rfl⟩ := hu
  rw [returns_bind]
  apply signed_returns
  · unfold INT64_MIN INT64_MAX
    omega
  rw [Int.tdiv_eq_ediv_of_nonneg helapsed, toInt_of_range (by omega)]
  dsimp only
  generalize hx : g.initialTime.tmSec + (u.uptime - g.bootTimeMs) / 1000 = x at hmax
  rw [returns_bind]
  apply signed_returns (by omega)
  rw [returns_bind]
  apply carry_returns (by decide) (by omega) (by omega) (by omega) (by omega)
  dsimp only
  generalize hmin : g.initialTime.tmMin + x / 60 = min
  rw [returns_bind]
  apply carry_returns (by decide) (by omega) (by omega) (by omega) (by omega)
  dsimp only
  generalize hhours : g.initialTime.tmHour + min / 60 = hour
  rw [returns_bind]
  apply carry_returns (by decide) (by omega) (by omega) (by omega) (by omega)
  rw [returns_pure]
  refine ⟨rfl, ?_⟩
  rw [clock_eq hmin.symm hhours.symm] at hcarried
  · exact hcarried
  · rw [← hx, Int.toNat_of_nonneg (by omega)]
    rfl

/-- The printed year is an `int` as well. -/
theorem getDateTime_returns {g : Statics} (hvalid : g.initialTime.date.Valid)
    (hyear : INT_MIN ≤ g.initialTime.date.year ∧ g.initialTime.date.year ≤ INT_MAX)
    (helapsed : 0 ≤ s.uptime - g.bootTimeMs)
    (hmax : g.initialTime.tmSec + (s.uptime - g.bootTimeMs) / 1000 ≤ INT_MAX) :
    Returns device .none (fun ret u => ret = 0 ∧ ∃ d,
      u.printed = s.printed ++ [dateMessage d] ∧
        Carried g.initialTime.date ((s.uptime - g.bootTimeMs) / 1000).toNat d)
      (getDateTime g) s := by
  unfold getDateTime
  rw [returns_bind]
  apply (carriedTime_returns hvalid helapsed hmax).imp
  intro tm t ht
  obtain ⟨rfl, hcarried⟩ := ht
  have hsame : tm.tmYear + 1900 = g.initialTime.date.year := hcarried.year
  have hmonth : tm.tmMon + 1 = g.initialTime.date.month := hcarried.month
  have hvalidMonth := hvalid.month
  rw [returns_bind]
  apply signed_returns
  · rw [hsame]
    exact hyear
  rw [returns_bind]
  apply signed_returns
  · unfold INT_MIN INT_MAX
    omega
  rw [returns_bind, returns_lift]
  refine ⟨trivial, ⟨(), _, rfl⟩, fun _ v hv => ?_⟩
  obtain rfl : v = _ := hv
  rw [returns_pure]
  exact ⟨rfl, tm.date, rfl, hcarried⟩

/-- **Exact to the end of the month.** From any valid start, the three loops end without overflow and
carry the seconds over; the date and time is the true one exactly as long as the day is one of the
month. It is printed, where the year is an `int`. From the program's own start it is the true one for
five and a half hours. -/
theorem getDateTime_exact :
    (∀ (g : Statics) (s : System), g.initialTime.date.Valid → 0 ≤ s.uptime - g.bootTimeMs →
      g.initialTime.tmSec + (s.uptime - g.bootTimeMs) / 1000 ≤ INT_MAX →
      Returns device .none (fun tm u => u = s ∧
        Carried g.initialTime.date ((s.uptime - g.bootTimeMs) / 1000).toNat tm.date)
        (carriedTime g) s) ∧
    (∀ (g : Statics) (s : System), g.initialTime.date.Valid →
      INT_MIN ≤ g.initialTime.date.year ∧ g.initialTime.date.year ≤ INT_MAX →
      0 ≤ s.uptime - g.bootTimeMs →
      g.initialTime.tmSec + (s.uptime - g.bootTimeMs) / 1000 ≤ INT_MAX →
      Returns device .none (fun ret u => ret = 0 ∧ ∃ d,
        u.printed = s.printed ++ [dateMessage d] ∧
          Carried g.initialTime.date ((s.uptime - g.bootTimeMs) / 1000).toNat d)
        (getDateTime g) s) ∧
    ∀ (boot : ℤ) (s : System), 0 ≤ s.uptime - boot → (s.uptime - boot) / 1000 ≤ INT_MAX →
      Returns device .none (fun ret u => ret = 0 ∧ ∃ d,
        u.printed = s.printed ++ [dateMessage d] ∧
          (d = DateTime.after ⟨2025, 11, 30, 18, 30, 0⟩ ((s.uptime - boot) / 1000).toNat ↔
            s.uptime - boot < 19800000))
        (getDateTime ⟨startTime, boot⟩) s := by
  refine ⟨fun g s => carriedTime_returns, fun g s => getDateTime_returns,
    fun boot s helapsed hmax => ?_⟩
  have hvalid : startTime.date.Valid :=
    ⟨by decide, by decide, by decide, by decide, by decide⟩
  have hyear : INT_MIN ≤ startTime.date.year ∧ startTime.date.year ≤ INT_MAX := by decide
  have hreturns := getDateTime_returns (g := ⟨startTime, boot⟩) hvalid hyear helapsed
    (by rw [show startTime.tmSec = 0 from rfl, Int.zero_add]; exact hmax)
  refine hreturns.imp fun ret u hu => ?_
  obtain ⟨hret, d, hprinted, hcarried⟩ := hu
  refine ⟨hret, d, hprinted, hcarried.true_iff.trans ?_⟩
  have hlen : monthLength startTime.date.year startTime.date.month = 30 := by decide
  have hday : startTime.date.day = 30 := rfl
  have hseconds : startTime.date.secondOfDay = 66600 := by decide
  dsimp only
  rw [hlen, hday, hseconds]
  omega

/-- A minute and a second after the start. -/
theorem getDateTime_exact_minute :
    Returns device .none (fun ret u => ret = 0 ∧ ∃ d, u.printed = [dateMessage d] ∧
      Carried startTime.date 61 d) (getDateTime ⟨startTime, 0⟩) ⟨61000, []⟩ :=
  getDateTime_exact.2.1 ⟨startTime, 0⟩ ⟨61000, []⟩
    ⟨by decide, by decide, by decide, by decide, by decide⟩ (by decide) (by decide) (by decide)

end NrfProjects.Rtc
