import Mathlib.Tactic.SplitIfs
import NrfProjects.PwrReg.Main

/-! # After the first failure

The count is off by one after the first failed driver operation, and stays so. From then on no cycle
asks the driver for anything, and the output stays as it is, whatever is logged. -/

namespace NrfProjects.PwrReg
set_option autoImplicit false
open Interaction

def FirstFailure (outcome : ℕ → Option Errno) (n : ℕ) : Prop :=
  (∀ m < n, outcome m = none) ∧ outcome n ≠ none

/-- The enables are the even operations of the driver (`operation_order`). -/
def stuckCount (n : ℕ) : ℤ := if n % 2 = 0 then -1 else 1

def stuckOutput (n : ℕ) : Bool := n % 2 == 1

/-- The driver does nothing after operation `n`. -/
def Final (n : ℕ) (s : State) : Prop :=
  s.operations ≤ n + 1 ∧ (s.operations = n + 1 → s.output = stuckOutput n)

/-- Between two cycles. -/
inductive Head (n : ℕ) (s : State) : Prop
  | healthy (hle : s.operations ≤ n) (heven : s.operations % 2 = 0) (hcount : s.refcount = 0)
      (houtput : s.output = false)
  | stuck (hlast : s.operations = n + 1) (hcount : s.refcount = stuckCount n)
      (houtput : s.output = stuckOutput n)

variable {outcome : ℕ → Option Errno} {s t : State} {n : ℕ}

def finalWatch (n : ℕ) : Watch Call State where
  atLoop := Head n
  atCall _ := Final n

theorem Head.final (h : Head n s) : Final n s := by
  cases h with
  | healthy hle heven hcount houtput => exact ⟨by omega, fun hlast => by omega⟩
  | stuck hlast hcount houtput => exact ⟨Nat.le_of_eq hlast, fun _ => houtput⟩

/-! ## One cycle -/

/-- A cycle passes through two states besides the one it starts from. -/
theorem cycle_points {W : Watch Call State} {Q : Unit ⊕ ℤ → State → Prop}
    (hs : W.atCall .regulatorEnable s)
    (henable : W.atCall .regulatorDisable (regulatorEnable outcome s).2)
    (hlogOn : ∀ r, W.atCall (.log r) (regulatorEnable outcome s).2)
    (hlogOff : ∀ r, W.atCall (.log r) (regulatorDisable outcome (regulatorEnable outcome s).2).2)
    (hQ : Q (.inl ()) (regulatorDisable outcome (regulatorEnable outcome s).2).2) :
    Safe (device outcome) W cycle s Q := by
  have hlog : ∀ (r : Report) (t : State) {R : Unit → State → Prop}, W.atCall (.log r) t → R () t →
      Safe (device outcome) W (liftM (Call.log r)) t R := by
    intro r t R ht hR
    rw [safe_lift]
    refine ⟨ht, fun _ u hu => ?_⟩
    obtain rfl : u = t := hu
    exact hR
  unfold cycle
  rw [safe_bind, safe_lift]
  refine ⟨hs, fun ret t ht => ?_⟩
  obtain ⟨rfl, rfl⟩ := Prod.ext_iff.mp (answer_regulatorEnable.mp ht)
  have hrest : Safe (device outcome) W (do
      let ret ← Call.regulatorDisable
      if ret ≠ 0 then
        Call.log (.disableFailed ret)
      else
        Call.log .ledOff
      return .inl () : Prog Call (Unit ⊕ ℤ)) (regulatorEnable outcome s).2 Q := by
    rw [safe_bind, safe_lift]
    refine ⟨henable, fun ret t ht => ?_⟩
    obtain ⟨rfl, rfl⟩ := Prod.ext_iff.mp (answer_regulatorDisable.mp ht)
    split_ifs
    · rw [safe_bind]
      exact hlog _ _ (hlogOff _) (safe_pure.mpr hQ)
    · rw [safe_bind]
      exact hlog _ _ (hlogOff _) (safe_pure.mpr hQ)
  split_ifs
  · rw [safe_bind]
    exact hlog _ _ (hlogOn _) hrest
  · rw [safe_bind]
    exact hlog _ _ (hlogOn _) hrest

theorem cycle_states {Q : Unit ⊕ ℤ → State → Prop} (hs : Final n s)
    (henable : Final n (regulatorEnable outcome s).2)
    (hdisable : Final n (regulatorDisable outcome (regulatorEnable outcome s).2).2)
    (hQ : Q (.inl ()) (regulatorDisable outcome (regulatorEnable outcome s).2).2) :
    Safe (device outcome) (finalWatch n) cycle s Q :=
  cycle_points hs henable (fun _ => henable) (fun _ => hdisable) hQ

theorem drive_ok (on : Bool) (refcount : ℤ) (h : outcome s.operations = none) :
    drive outcome on refcount s = (0, ⟨refcount, on, s.operations + 1⟩) := by
  unfold drive
  rw [h]

theorem drive_failed (on : Bool) (refcount : ℤ) (h : outcome s.operations ≠ none) :
    (drive outcome on refcount s).2 = { s with operations := s.operations + 1 } := by
  obtain ⟨e, he⟩ := Option.ne_none_iff_exists'.mp h
  unfold drive
  rw [he]

/-- The count is off by one, so neither call of a cycle reaches the driver. -/
theorem stuck_cycle (outcome : ℕ → Option Errno) (h : s.refcount = stuckCount n) :
    (regulatorEnable outcome s).2 = { s with refcount := s.refcount + 1 } ∧
      (regulatorDisable outcome (regulatorEnable outcome s).2).2 = s := by
  have henable : regulatorEnable outcome s = (0, { s with refcount := s.refcount + 1 }) := by
    apply if_neg
    unfold stuckCount at h
    split_ifs at h <;> omega
  have hdisable : ¬ s.refcount + 1 - 1 = 0 := by
    unfold stuckCount at h
    split_ifs at h <;> omega
  rw [henable]
  refine ⟨rfl, ?_⟩
  unfold regulatorDisable
  rw [if_neg hdisable]
  dsimp only
  rw [Int.add_sub_cancel]

/-- The enable of a healthy cycle is the first operation to fail. -/
theorem enable_fails_cycle (hcount : s.refcount = 0) (hfails : outcome s.operations ≠ none) :
    (regulatorEnable outcome s).2 = { s with operations := s.operations + 1 } ∧
      (regulatorDisable outcome (regulatorEnable outcome s).2).2 =
        ⟨-1, s.output, s.operations + 1⟩ := by
  have henable : (regulatorEnable outcome s).2 = { s with operations := s.operations + 1 } := by
    unfold regulatorEnable
    rw [if_pos (by rw [hcount]; decide), drive_failed _ _ hfails]
  rw [henable]
  refine ⟨rfl, ?_⟩
  unfold regulatorDisable
  rw [if_neg (by rw [hcount]; decide)]
  dsimp only
  rw [hcount]
  rfl

/-- The enable of a healthy cycle succeeds. -/
theorem enable_ok_cycle (hcount : s.refcount = 0) (hok : outcome s.operations = none) :
    (regulatorEnable outcome s).2 = ⟨1, true, s.operations + 1⟩ ∧
      (regulatorDisable outcome (regulatorEnable outcome s).2).2 =
        (drive outcome false 0 ⟨1, true, s.operations + 1⟩).2 := by
  have henable : (regulatorEnable outcome s).2 = ⟨1, true, s.operations + 1⟩ := by
    unfold regulatorEnable
    rw [if_pos (by rw [hcount]; decide), drive_ok _ _ hok, hcount]
    rfl
  rw [henable]
  refine ⟨rfl, ?_⟩
  unfold regulatorDisable
  rw [if_pos (Int.sub_self 1)]
  rfl

theorem cycle_head (hn : FirstFailure outcome n) (hs : Head n s) :
    Safe (device outcome) (finalWatch n) cycle s fun x t =>
      x.elim (fun _ => Head n t) fun _ => True := by
  obtain ⟨hbefore, hfails⟩ := hn
  have hfinal := hs.final
  cases hs with
  | stuck hlast hcount houtput =>
    obtain ⟨henable, hdisable⟩ := stuck_cycle outcome hcount
    apply cycle_states hfinal
    · rw [henable]
      exact hfinal
    · rw [hdisable]
      exact hfinal
    · rw [hdisable]
      exact .stuck hlast hcount houtput
  | healthy hle heven hcount houtput =>
    by_cases hlast : s.operations = n
    · -- the enable fails
      have hmod : n % 2 = 0 := hlast ▸ heven
      have hoff : stuckOutput n = false := by simp [stuckOutput, hmod]
      obtain ⟨henable, hdisable⟩ := enable_fails_cycle hcount (hlast ▸ hfails)
      apply cycle_states hfinal
      · rw [henable]
        exact ⟨by dsimp only; omega, fun _ => houtput.trans hoff.symm⟩
      · rw [hdisable]
        exact ⟨by dsimp only; omega, fun _ => houtput.trans hoff.symm⟩
      · rw [hdisable]
        refine .stuck (by dsimp only; omega) ?_ (houtput.trans hoff.symm)
        rw [stuckCount, if_pos hmod]
    · have hlt : s.operations < n := by omega
      obtain ⟨henable, hdisable⟩ := enable_ok_cycle hcount (hbefore _ hlt)
      by_cases hnext : s.operations + 1 = n
      · -- the disable fails
        have hmod : ¬ n % 2 = 0 := by omega
        have hon : stuckOutput n = true := by
          unfold stuckOutput
          rw [beq_iff_eq]
          omega
        have hdrive := drive_failed (s := ⟨1, true, s.operations + 1⟩) false 0 (hnext ▸ hfails)
        rw [hdrive] at hdisable
        apply cycle_states hfinal
        · rw [henable]
          exact ⟨by dsimp only; omega, fun h => by dsimp only at h; omega⟩
        · rw [hdisable]
          exact ⟨by dsimp only; omega, fun _ => hon.symm⟩
        · rw [hdisable]
          refine .stuck (by dsimp only; omega) ?_ hon.symm
          rw [stuckCount, if_neg hmod]
      · have hok : outcome (s.operations + 1) = none := hbefore _ (by omega)
        have hdrive := drive_ok (s := ⟨1, true, s.operations + 1⟩) false 0 hok
        rw [hdrive] at hdisable
        apply cycle_states hfinal
        · rw [henable]
          exact ⟨by dsimp only; omega, fun h => by dsimp only at h; omega⟩
        · rw [hdisable]
          exact ⟨by dsimp only; omega, fun h => by dsimp only at h; omega⟩
        · rw [hdisable]
          exact .healthy (by dsimp only; omega) (by dsimp only; omega) rfl rfl

/-! ## The order of the operations -/

/-- Between two cycles the next operation is an enable, or there is none. -/
inductive Paired (s : State) : Prop
  | even (hcount : s.refcount = 0) (heven : s.operations % 2 = 0)
  | stuck (n : ℕ) (hcount : s.refcount = stuckCount n)

/-- Where a call asks the driver for an operation, it is an enable if the operation is even. -/
def orderWatch (outcome : ℕ → Option Errno) : Watch Call State where
  atLoop := Paired
  atCall
    | .regulatorEnable, s =>
      (regulatorEnable outcome s).2.operations ≠ s.operations → s.operations % 2 = 0
    | .regulatorDisable, s =>
      (regulatorDisable outcome s).2.operations ≠ s.operations → s.operations % 2 = 1
    | _, _ => True

theorem cycle_paired (hs : Paired s) :
    Safe (device outcome) (orderWatch outcome) cycle s fun x t =>
      x.elim (fun _ => Paired t) fun _ => True := by
  cases hs with
  | stuck n hcount =>
    obtain ⟨henable, hdisable⟩ := stuck_cycle outcome hcount
    apply cycle_points
    · intro hasked
      rw [henable] at hasked
      exact absurd rfl hasked
    · intro hasked
      rw [hdisable, henable] at hasked
      exact absurd rfl hasked
    · exact fun _ => trivial
    · exact fun _ => trivial
    · rw [hdisable]
      exact .stuck n hcount
  | even hcount heven =>
    by_cases hok : outcome s.operations = none
    · obtain ⟨henable, hdisable⟩ := enable_ok_cycle hcount hok
      have hodd : (s.operations + 1) % 2 = 1 := by omega
      apply cycle_points
      · exact fun _ => heven
      · rw [henable]
        exact fun _ => hodd
      · exact fun _ => trivial
      · exact fun _ => trivial
      · rw [hdisable]
        by_cases hnext : outcome (s.operations + 1) = none
        · rw [drive_ok (s := ⟨1, true, s.operations + 1⟩) false 0 hnext]
          exact .even rfl (by dsimp only; omega)
        · rw [drive_failed (s := ⟨1, true, s.operations + 1⟩) false 0 hnext]
          exact .stuck 1 rfl
    · obtain ⟨henable, hdisable⟩ := enable_fails_cycle hcount hok
      apply cycle_points
      · exact fun _ => heven
      · intro hasked
        rw [hdisable, henable] at hasked
        exact absurd rfl hasked
      · exact fun _ => trivial
      · exact fun _ => trivial
      · rw [hdisable]
        exact .stuck 0 rfl

/-- Operation `n` of the driver is an enable if and only if `n` is even. -/
theorem operation_order {q : Prog Call ℤ} (h : Steps (device outcome) (main, boot) (q, t)) :
    (q.Calls .regulatorEnable →
      (regulatorEnable outcome t).2.operations ≠ t.operations → t.operations % 2 = 0) ∧
    (q.Calls .regulatorDisable →
      (regulatorDisable outcome t).2.operations ≠ t.operations → t.operations % 2 = 1) := by
  have hmain : Safe (device outcome) (orderWatch outcome) main boot fun _ _ => True := by
    unfold main
    rw [safe_bind, safe_lift]
    refine ⟨trivial, fun ready t ht => ?_⟩
    obtain rfl : t = boot := ht
    cases ready with
    | false => exact safe_pure.mpr trivial
    | true =>
      exact Safe.repeatM_quiet (fun _ t => Paired t) (.even rfl rfl) (fun _ _ ht => ht)
        fun _ t ht => cycle_paired ht
  constructor
  · intro hq
    exact hmain.atCall h hq
  · intro hq
    exact hmain.atCall h hq

/-! ## Every run -/

theorem main_final (hn : FirstFailure outcome n) :
    Safe (device outcome) (finalWatch n) main boot fun _ _ => True := by
  have hboot : Head n boot := .healthy (Nat.zero_le n) rfl rfl rfl
  unfold main
  rw [safe_bind, safe_lift]
  refine ⟨hboot.final, fun ready t ht => ?_⟩
  obtain rfl : t = boot := ht
  cases ready with
  | false => exact safe_pure.mpr trivial
  | true =>
    exact Safe.repeatM_quiet (fun _ t => Head n t) hboot (fun _ _ ht => ht) fun _ t ht =>
      cycle_head hn ht

/-- **The first failure is final.** If operation `n` of the driver is the first to fail, then in every
run the driver is asked for nothing after it; the output stays as it is from then on, off if an enable
failed and on if a disable did; and between two cycles the count is off by one. -/
theorem first_failure_final {q : Prog Call ℤ} (hn : FirstFailure outcome n)
    (h : Steps (device outcome) (main, boot) (q, t)) (hq : ∀ a, q ≠ .ret a) :
    t.operations ≤ n + 1 ∧ (t.operations = n + 1 → t.output = stuckOutput n ∧
      (q.AtLoop → t.refcount = stuckCount n)) := by
  have hmain := main_final hn
  cases q with
  | ret a => exact absurd rfl (hq a)
  | call c k =>
    have hfinal : Final n t := hmain.atCall h ⟨k, rfl⟩
    exact ⟨hfinal.1, fun hlast => ⟨hfinal.2 hlast, fun hloop => hloop.elim⟩⟩
  | loop b body k =>
    have hhead : Head n t := hmain.atLoop h trivial
    refine ⟨hhead.final.1, fun hlast => ⟨hhead.final.2 hlast, fun _ => ?_⟩⟩
    cases hhead with
    | healthy hle => omega
    | stuck hlast hcount => exact hcount

/-- The second operation, a disable, is the first to fail. -/
def secondFails (m : ℕ) : Option Errno := if m = 1 then some .ioError else none

theorem secondFails_first : FirstFailure secondFails 1 := by
  refine ⟨fun m hm => if_neg (Nat.ne_of_lt hm), ?_⟩
  simp [secondFails]

/-- Cycles later the LED is still on. -/
theorem first_failure_final_disable :
    (replay (script secondFails) 20 (main, boot)).2.output = true :=
  ((first_failure_final secondFails_first (replay_steps script_follows 20 (main, boot)) nofun).2
    rfl).1

end NrfProjects.PwrReg
