import NrfProjects.Interaction.Projection
import NrfProjects.Nvs.Completion

/-! # The history of the counter

Flash keeps earlier values of an item until it is collected, and each boot prints those of the
counter. Power may be cut at any point of any boot; the history has no gap all the same. -/

namespace NrfProjects.Nvs
set_option autoImplicit false
open Interaction Encoding

/-- A store with the values that the counter has had, the newest first. -/
structure Logged where
  store : Store
  log : List ℕ

/-- A value that is there already is not written again. -/
def Logged.record (s : Logged) (t : Store) : List ℕ :=
  if counter t = counter s.store then s.log else (counter t).toList ++ s.log

/-- An earlier value of the counter is read as it was written, or the read fails. -/
def logged : Device Call Logged where
  answer
    | .nvsReadHist _ len cnt, s, r, t =>
      t = s ∧ (r.1 < 0 ∨ ∃ v, s.log[cnt]? = some v ∧ r = (4, (toLE 4 v).take len))
    | c, s, r, t => (device allSucceed).answer c s.store r t.store ∧ t.log = s.record t.store
  move _ _ := False

/-- On a formatted flash. -/
def erased : Logged := ⟨fun _ => none, []⟩

variable {cfg : Config} {s t u : Logged}

theorem logged_answer {ρ : Type} {c : Call ρ} {r : ρ} (ha : logged.answer c s r t) :
    (device allSucceed).answer c s.store r t.store ∧ t.log = s.record t.store := by
  cases c with
  | nvsReadHist id len cnt =>
    obtain ⟨rfl, -⟩ := ha
    exact ⟨rfl, (if_pos rfl).symm⟩
  | _ => exact ha

theorem logged_projects : logged.Projects Logged.store (device allSucceed) where
  answer _ _ _ _ ha := (logged_answer ha).1
  move _ _ hm := hm.elim

/-! ## The values on the flash -/

/-- The newest value is the counter, and value `i` of `n` is `n - 1 - i` moves from 0. -/
structure Unbroken (cfg : Config) (s : Logged) : Prop where
  newest : s.log.head? = counter s.store
  value : ∀ i v, s.log[i]? = some v → v = (s.log.length - 1 - i) % (cfg.maxReboot + 1)

theorem erased_unbroken (cfg : Config) : Unbroken cfg erased := ⟨rfl, nofun⟩

/-- A new value, one move after the newest. -/
theorem Unbroken.push {v : ℕ} (h : Unbroken cfg s) (hcount : counter t.store = some v)
    (hv : v = s.log.length % (cfg.maxReboot + 1)) (hlog : t.log = v :: s.log) : Unbroken cfg t := by
  refine ⟨by rw [hlog, hcount]; rfl, fun i w hw => ?_⟩
  rw [hlog] at hw ⊢
  rw [List.length_cons, Nat.add_sub_cancel]
  cases i with
  | zero =>
    cases hw
    exact hv
  | succ i =>
    rw [Nat.sub_add_eq, Nat.sub_right_comm]
    exact h.value i w hw

/-- A counter that moves is new, or goes on to the value after it. -/
theorem CounterMove.cases {c c' : Option ℕ} (h : CounterMove cfg c c') :
    c' = c ∨ c = none ∧ c' = some 0 ∨ ∃ v, c = some v ∧ c' = some (next cfg v) := by
  obtain heq | hnew | ⟨v, hv, ⟨hlt, hnext⟩ | ⟨hge, hnext⟩⟩ := h
  · exact .inl heq
  · exact .inr (.inl hnew)
  · refine .inr (.inr ⟨v, hv, ?_⟩)
    rw [hnext, next, if_pos hlt]
  · refine .inr (.inr ⟨v, hv, ?_⟩)
    rw [hnext, next, if_neg (Nat.not_lt.mpr hge)]

theorem Unbroken.head {v : ℕ} (h : Unbroken cfg s) (hv : counter s.store = some v) :
    s.log.length = s.log.length - 1 + 1 ∧ v = (s.log.length - 1) % (cfg.maxReboot + 1) := by
  have hhead : s.log[0]? = some v := by
    rw [← List.head?_eq_getElem?, h.newest, hv]
  have hpos : 0 < s.log.length := (List.getElem?_eq_some_iff.mp hhead).1
  exact ⟨by omega, h.value 0 v hhead⟩

theorem Unbroken.move (h : Unbroken cfg s)
    (hm : CounterMove cfg (counter s.store) (counter t.store))
    (hlog : t.log = s.record t.store) : Unbroken cfg t := by
  by_cases hsame : counter t.store = counter s.store
  · rw [Logged.record, if_pos hsame] at hlog
    refine ⟨by rw [hlog, hsame]; exact h.newest, fun i v hv => ?_⟩
    rw [hlog] at hv ⊢
    exact h.value i v hv
  · rw [Logged.record, if_neg hsame] at hlog
    obtain heq | ⟨hnone, hzero⟩ | ⟨v, hv, hnext⟩ := hm.cases
    · exact absurd heq hsame
    · -- the first value
      have hempty : s.log = [] := List.head?_eq_none_iff.mp (h.newest.trans hnone)
      rw [hzero] at hlog
      apply h.push hzero _ hlog
      rw [hempty]
      rfl
    · obtain ⟨hlen, hmod⟩ := h.head hv
      have hle : v ≤ cfg.maxReboot := by
        rw [hmod]
        exact Nat.le_of_lt_succ (Nat.mod_lt _ (Nat.succ_pos _))
      rw [hnext] at hlog
      apply h.push hnext _ hlog
      rw [next_mod cfg hle, hmod, Nat.mod_add_mod, ← hlen]

/-! ## Runs and histories -/

theorem Unbroken.steps (h : Unbroken cfg s) (hw : CounterWord s.store) {q : Prog Call Exit}
    (hrun : Steps logged (main cfg, s) (q, t)) : Unbroken cfg t := by
  suffices hall : ∀ x, Steps logged (main cfg, s) x → Unbroken cfg x.2 from hall _ hrun
  intro x hx
  induction hx with
  | refl => exact h
  | @tail y z hy hstep ih =>
    obtain ⟨p, u⟩ := y
    have hproj : Steps (device allSucceed) (main cfg, s.store) (p, u.store) :=
      Steps.project logged_projects hy
    cases hstep with
    | call ha =>
      obtain ⟨hdev, hlog⟩ := logged_answer ha
      exact ih.move (counter_step hw hproj (.call hdev)) hlog
    | enter => exact ih
    | move _ hmove => exact hmove.elim

theorem CounterWord.steps (hw : CounterWord s.store) {q : Prog Call Exit}
    (hrun : Steps logged (main cfg, s) (q, t)) : CounterWord t.store :=
  Boot.word hw (.cut (hrun.project logged_projects))

theorem Unbroken.history {l : List (Logged × Option Exit)}
    (h : History logged id (main cfg) erased l t) : CounterWord t.store ∧ Unbroken cfg t := by
  induction h with
  | start => exact ⟨nofun, erased_unbroken cfg⟩
  | boot _ hb ih =>
    obtain ⟨hw, hu⟩ := ih
    cases hb with
    | finished hs => exact ⟨hw.steps hs, hu.steps hw hs⟩
    | cut hs => exact ⟨hw.steps hs, hu.steps hw hs⟩

end NrfProjects.Nvs
