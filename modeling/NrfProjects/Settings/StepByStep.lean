import Mathlib.Logic.Function.Basic
import Mathlib.Tactic.SplitIfs
import NrfProjects.Interaction.Boots
import NrfProjects.Interaction.Errno
import NrfProjects.Settings.Main

/-! # How the persisted value moves

The value goes up by one at each boot and is deleted once it is past 10, as long as it is read. A
boot that does not read it takes it for 0, and saves a 1 over it. -/

namespace NrfProjects.Settings
set_option autoImplicit false
open Interaction

/-! ## The storage -/

/-- What works in one boot: whether the load hands `foo/bar` over, whether the callback reads it,
and whether saving and deleting do anything. -/
structure Outcome where
  loads : Bool
  reads : Bool
  saves : Bool
  deletes : Bool

structure System where
  store : Name → Option (List UInt8)
  /-- The load of this boot has handed `foo/bar` over. -/
  handed : Bool
  boot : ℕ

def System.set (s : System) (name : Name) (data : Option (List UInt8)) : System :=
  { s with store := Function.update s.store name data }

def powerUp (s : System) : System := { s with handed := false, boot := s.boot + 1 }

/-- The entry that the demo keeps. -/
def entry (s : System) : Option (List UInt8) := s.store fooBar

/-- The load hands over entries of `foo` in any order, `foo/bar` at most once and, if it works,
before it returns. Any of the codes may be the one it returns. -/
def device (o : ℕ → Outcome) : Device Call System where
  answer
    | .settingsSubsysInit, s, _, t => t = s
    | .settingsRegister, s, _, t => t = s
    | .loadNext _, s, r, t =>
      match r with
      | .inl _ => ((o s.boot).loads = true → entry s ≠ none → s.handed = true) ∧ t = s
      | .inr (name, len) => (∃ data, s.store ("foo" :: name) = some data ∧ len = data.length) ∧
        (name = ["bar"] → (o s.boot).loads = true ∧ s.handed = false) ∧
          t = { s with handed := s.handed || name = ["bar"] }
    | .readCb name len, s, r, t => t = s ∧
      if (o s.boot).reads then
        ∃ data, s.store ("foo" :: name) = some data ∧
          r = (((data.take len).length : ℤ), data.take len)
      else r.1 < 0 ∧ r.2 = []
    | .settingsSaveOne name data, s, r, t =>
      if (o s.boot).saves then r = 0 ∧ t = s.set name (some data) else r < 0 ∧ t = s
    | .settingsDelete name, s, r, t =>
      if (o s.boot).deletes then r = 0 ∧ t = s.set name none else r < 0 ∧ t = s
    | .printk _, s, _, t => t = s
  move _ _ := False

instance (o : ℕ → Outcome) : (device o).Quiet := ⟨fun _ _ h => h⟩

/-- The entry is absent or one byte. -/
def OneByte (s : System) : Prop := ∀ data, entry s = some data → data.length = 1

/-! ## The moves -/

def EntryMove (e e' : Option (List UInt8)) : Prop :=
  e' = e ∨ e = none ∧ e' = some [1] ∨ ∃ v : UInt8, e = some [v] ∧
    (v ≤ 10 ∧ e' = some [v + 1] ∨ 10 < v ∧ e' = none)

/-- A boot with outcome `o` reads the value if it is stored. -/
def Outcome.Readable (o : Outcome) : Prop := o.loads = true ∧ o.reads = true

/-- The moves a boot may make: a value that it has not read stays in place. -/
def Allowed (o : Outcome) (e e' : Option (List UInt8)) : Prop :=
  EntryMove e e' ∧ (¬ o.Readable → e ≠ none → e' = e)

/-- Whatever a call answers, the entry moves as allowed. -/
def moveWatch (o : ℕ → Outcome) : Watch Call System where
  atLoop _ := True
  atCall c t := ∀ r u, (device o).answer c t r u → Allowed (o t.boot) (entry t) (entry u)

/-- The boot that comes after `s` moves the entry only as allowed. -/
def StepByStep (o : ℕ → Outcome) (s : System) : Prop :=
  Safe (device o) (moveWatch o) main (powerUp s) fun _ _ => True

variable {o : ℕ → Outcome} {s t : System} {Q : Unit → System → Prop}

theorem Allowed.refl (a : Outcome) (e : Option (List UInt8)) : Allowed a e e :=
  ⟨.inl rfl, fun _ _ => rfl⟩

/-- A call that does not touch the storage. -/
theorem moveWatch_of_same {ρ : Type} {c : Call ρ}
    (h : ∀ r u, (device o).answer c t r u → u.store = t.store) : (moveWatch o).atCall c t := by
  intro r u hu
  have hentry : entry u = entry t := by rw [entry, h r u hu, entry]
  rw [hentry]
  exact .refl _ _

theorem safe_printk_iff {α : Type} {m : Message} {p : Prog Call α} {R : α → System → Prop} :
    Safe (device o) (moveWatch o) (do Call.printk m; p) t R ↔
      Safe (device o) (moveWatch o) p t R := by
  simp only [safe_bind, safe_lift]
  constructor
  · intro h
    exact h.2 () t rfl
  · intro h
    refine ⟨moveWatch_of_same fun r u hu => by rw [show u = t from hu], ?_⟩
    rintro _ u rfl
    exact h

/-! ## Loading -/

theorem steq_bar_iff (name : Name) : settingsNameSteq name "bar" = some [] ↔ name = ["bar"] := by
  cases name with
  | nil => simp [settingsNameSteq]
  | cons part next =>
    by_cases h : part = "bar"
    · simp [settingsNameSteq, h]
    · simp [settingsNameSteq, h]

/-- The value that the demo goes on with. -/
def loadedVal (a : Outcome) (e : Option (List UInt8)) : UInt8 :=
  if a.loads && a.reads then (e.getD []).headD 0 else 0

/-- The handler, called for `foo/bar`. -/
theorem fooSettingsSet_bar {data : List UInt8} {g : Statics} (hs : entry s = some data)
    (hlen : data.length = 1) :
    Safe (device o) (moveWatch o) (fooSettingsSet ["bar"] data.length g) s fun x u =>
      u = s ∧ x.2.fooVal = if (o s.boot).reads then data.headD 0 else g.fooVal := by
  have hread : data.take 1 = data := List.take_of_length_le (Nat.le_of_eq hlen)
  have hhead : ∀ v, data.headD v = data.headD 0 := by
    intro v
    cases data with
    | nil => cases hlen
    | cons b bs => rfl
  unfold fooSettingsSet
  rw [if_pos ((steq_bar_iff _).mpr rfl), if_neg (not_not_intro hlen), safe_bind, safe_lift]
  refine ⟨moveWatch_of_same fun r u hu => by rw [hu.1], ?_⟩
  rintro ⟨rc, bytes⟩ u ⟨rfl, hr⟩
  by_cases hreads : (o u.boot).reads = true
  · rw [if_pos hreads] at hr
    obtain ⟨data', hdata', hr⟩ := hr
    obtain rfl : data' = data := Option.some.inj (hdata'.symm.trans hs)
    obtain ⟨rfl, rfl⟩ := Prod.mk.inj hr
    simp only [ge_iff_le, Int.natCast_nonneg, if_true, safe_pure, hread, hreads]
    exact ⟨trivial, hhead _⟩
  · rw [if_neg hreads] at hr
    obtain ⟨hneg, hnil⟩ := hr
    have hrc : ¬ rc ≥ 0 := Int.not_le.mpr hneg
    simp only [if_neg hrc, safe_pure, if_neg hreads]
    rw [show bytes = [] from hnil]
    exact ⟨trivial, rfl⟩

theorem fooSettingsSet_other {name : Name} {len : ℕ} {g : Statics} (hname : name ≠ ["bar"]) :
    Safe (device o) (moveWatch o) (fooSettingsSet name len g) s fun x u =>
      u = s ∧ x.2 = g := by
  unfold fooSettingsSet
  rw [if_neg (fun h => hname ((steq_bar_iff name).mp h)), safe_pure]
  exact ⟨rfl, rfl⟩

/-- Between two callbacks of the load that started in `s`. -/
structure Loading (o : ℕ → Outcome) (s : System) (g : Statics) (t : System) : Prop where
  store : t.store = s.store
  boot : t.boot = s.boot
  handed : t.handed = true → (o s.boot).loads = true ∧ entry s ≠ none
  value : g.fooVal = if t.handed && (o s.boot).reads then ((entry s).getD []).headD 0 else 0

theorem Loading.ended {g : Statics} (h : Loading o s g t)
    (hend : (o s.boot).loads = true → entry s ≠ none → t.handed = true) :
    g.fooVal = loadedVal (o s.boot) (entry s) := by
  rw [h.value, loadedVal]
  have hhanded := h.handed
  cases ht : t.handed with
  | true =>
    rw [(hhanded ht).1]
  | false =>
    cases he : entry s with
    | none => simp
    | some data =>
      have hloads : (o s.boot).loads = false := by
        by_contra hne
        have := hend (by simpa using hne) (by simp [he])
        simp [ht] at this
      simp [hloads]

theorem settingsLoad_spec (hs : OneByte s) (hhanded : s.handed = false) :
    Safe (device o) (moveWatch o) (settingsLoad initial) s fun x u =>
      x.2.fooVal = loadedVal (o s.boot) (entry s) ∧ u.store = s.store ∧ u.boot = s.boot := by
  have hstart : Loading o s initial s :=
    ⟨rfl, rfl, fun h => absurd h (by simp [hhanded]), by simp [hhanded, initial]⟩
  refine Safe.repeatM_quiet (fun x t => Loading o s x.2 t) hstart (fun _ _ _ => trivial) ?_
  rintro ⟨rc, g⟩ t ht
  rw [safe_bind, safe_lift]
  refine ⟨moveWatch_of_same ?_, ?_⟩
  · rintro (rc' | ⟨name, len⟩) u hu
    · rw [hu.2]
    · rw [hu.2.2]
  rintro (rc' | ⟨name, len⟩) u hu
  · -- the load returns
    obtain ⟨hend, rfl⟩ := hu
    rw [safe_pure]
    refine ⟨ht.ended ?_, ht.store, ht.boot⟩
    rw [← ht.boot]
    simpa only [entry, ht.store] using hend
  · obtain ⟨⟨data, hdata, rfl⟩, hbar, rfl⟩ := hu
    rw [safe_bind]
    by_cases hname : name = ["bar"]
    · subst hname
      obtain ⟨hloads, hnot⟩ := hbar rfl
      have hentry : entry s = some data := by rw [entry, ← ht.store]; exact hdata
      have hzero : g.fooVal = 0 := by rw [ht.value]; simp [hnot]
      have hcall := fooSettingsSet_bar (o := o) (g := g)
        (s := { t with handed := t.handed || decide (["bar"] = ["bar"]) }) hdata (hs data hentry)
      refine hcall.imp ?_
      rintro ⟨rc', g'⟩ u ⟨rfl, hval⟩
      rw [safe_pure]
      refine ⟨ht.store, ht.boot, fun _ => ⟨ht.boot ▸ hloads, by simp [hentry]⟩, ?_⟩
      rw [show g'.fooVal = _ from hval, hzero, hentry, ht.boot]
      simp
    · refine (fooSettingsSet_other hname).imp ?_
      rintro ⟨rc', g'⟩ u ⟨rfl, hg⟩
      rw [safe_pure]
      refine ⟨ht.store, ht.boot, fun h => ht.handed (by simpa [hname] using h), ?_⟩
      rw [show g' = g from hg]
      simpa [hname] using ht.value

/-- A load that does not read the value can end with the initial one. -/
theorem settingsLoad_unread {R : ℤ × Statics → System → Prop} (hs : OneByte s)
    (hhanded : s.handed = false) (hunread : ¬ (o s.boot).Readable)
    (h : Safe (device o) (moveWatch o) (settingsLoad initial) s R) :
    ∃ rc u, R (rc, initial) u ∧ u.store = s.store ∧ u.boot = s.boot := by
  have hround := (safe_repeatM_quiet.mp h).2
  rw [safe_bind, safe_lift] at hround
  by_cases hload : (o s.boot).loads = true ∧ entry s ≠ none
  · -- the entry is handed over, and the callback fails
    obtain ⟨hloads, hsome⟩ := hload
    obtain ⟨data, hdata⟩ := Option.ne_none_iff_exists'.mp hsome
    have hreads : ¬ (o s.boot).reads = true := fun h => hunread ⟨hloads, h⟩
    let u : System := { s with handed := s.handed || decide (["bar"] = ["bar"]) }
    have hhand := hround.2 (.inr (["bar"], data.length)) u
      ⟨⟨data, hdata, rfl⟩, fun _ => ⟨hloads, hhanded⟩, rfl⟩
    have hrest := safe_bind.mp hhand
    unfold fooSettingsSet at hrest
    rw [if_pos ((steq_bar_iff _).mpr rfl), if_neg (not_not_intro (hs data hdata)), safe_bind,
      safe_lift] at hrest
    have hfail := hrest.2 (Errno.ioError.code, []) u ⟨rfl, by
      rw [if_neg hreads]
      exact ⟨Errno.ioError.neg, rfl⟩⟩
    dsimp only at hfail
    rw [if_neg (by decide), safe_pure, safe_pure] at hfail
    have hround := (safe_repeatM_quiet.mp hfail).2
    rw [safe_bind, safe_lift] at hround
    have hend := hround.2 (.inl 0) u ⟨fun _ _ => by simp [u], rfl⟩
    dsimp only at hend
    rw [safe_pure] at hend
    exact ⟨0, u, hend, rfl, rfl⟩
  · have hend := hround.2 (.inl 0) s ⟨fun hl he => absurd ⟨hl, he⟩ hload, rfl⟩
    dsimp only at hend
    rw [safe_pure] at hend
    exact ⟨0, s, hend, rfl, rfl⟩

/-! ## The update -/

/-- A call that sets the entry, or fails. -/
theorem moveWatch_set_iff {c : Call ℤ} {works : Bool} {data : Option (List UInt8)}
    (hc : ∀ r u, (device o).answer c t r u ↔
      if works then r = 0 ∧ u = t.set fooBar data else r < 0 ∧ u = t) :
    (moveWatch o).atCall c t ↔ (works = true → Allowed (o t.boot) (entry t) data) := by
  have hset : entry (t.set fooBar data) = data := by
    simp only [entry, System.set, Function.update_self]
  cases works with
  | true =>
    simp only [if_true] at hc
    constructor
    · intro h _
      have hcall := h 0 (t.set fooBar data) ((hc _ _).mpr ⟨rfl, rfl⟩)
      rwa [hset] at hcall
    · intro h r u hu
      obtain ⟨-, rfl⟩ := (hc r u).mp hu
      rw [hset]
      exact h rfl
  | false =>
    simp only [Bool.false_eq_true, if_false] at hc
    simp only [Bool.false_eq_true, false_implies, iff_true]
    apply moveWatch_of_same
    intro r u hu
    rw [((hc r u).mp hu).2]

/-- What the update does to an entry `e` is allowed, once the demo has taken `v` for its value. -/
def Fine (a : Outcome) (e : Option (List UInt8)) (v : UInt8) : Prop :=
  if v > 10 then a.deletes = true → Allowed a e none
  else a.saves = true → Allowed a e (some [v + 1])

theorem safe_update_iff {g : Statics} :
    Safe (device o) (moveWatch o) (update g) t (fun _ _ => True) ↔
      Fine (o t.boot) (entry t) g.fooVal := by
  have hprint : ∀ (m : Message) (u : System), (moveWatch o).atCall (.printk m) u := fun m u =>
    moveWatch_of_same fun r v hv => by rw [show v = u from hv]
  have hprinted : ∀ (m : Message) (u : System),
      Safe (device o) (moveWatch o) (liftM (Call.printk m)) u fun _ _ => True := fun m u =>
    safe_lift.mpr ⟨hprint m u, fun _ _ _ => trivial⟩
  have hsave : ∀ data : List UInt8, (moveWatch o).atCall (.settingsSaveOne fooBar data) t ↔
      ((o t.boot).saves = true → Allowed (o t.boot) (entry t) (some data)) := fun data =>
    moveWatch_set_iff fun _ _ => Iff.rfl
  have hdelete : (moveWatch o).atCall (.settingsDelete fooBar) t ↔
      ((o t.boot).deletes = true → Allowed (o t.boot) (entry t) none) :=
    moveWatch_set_iff fun _ _ => Iff.rfl
  unfold update Fine
  by_cases hbig : g.fooVal > 10
  · rw [if_pos hbig, if_pos hbig, ← hdelete]
    simp only [exampleDelete, safe_bind, safe_lift]
    constructor
    · intro h
      exact ((h.2 () t rfl).2 () t rfl).1
    · intro h
      refine ⟨hprint _ _, ?_⟩
      rintro _ u rfl
      refine ⟨hprint _ _, ?_⟩
      rintro _ v rfl
      refine ⟨h, fun rc w _ => ?_⟩
      split
      · exact hprinted _ _
      · exact hprinted _ _
  · rw [if_neg hbig, if_neg hbig, ← hsave]
    simp only [safe_bind, safe_lift]
    constructor
    · intro h
      exact h.1
    · intro h
      exact ⟨h, fun rc w _ => ⟨hprint _ _, fun _ _ _ => trivial⟩⟩

/-! ## One boot -/

theorem loadedVal_of_unread {a : Outcome} (h : ¬ a.Readable) (e : Option (List UInt8)) :
    loadedVal a e = 0 := by
  apply if_neg
  rwa [Bool.and_eq_true]

theorem fine_of_read {a : Outcome} {e : Option (List UInt8)}
    (he : ∀ data, e = some data → data.length = 1)
    (h : ∀ v : UInt8, e = some [v] → v ≠ 1 → a.Readable ∨ a.saves = false) :
    Fine a e (loadedVal a e) := by
  cases e with
  | none =>
    have hzero : loadedVal a none = 0 := by
      unfold loadedVal
      split <;> rfl
    rw [hzero]
    intro _
    exact ⟨.inr (.inl ⟨rfl, rfl⟩), fun _ hne => absurd rfl hne⟩
  | some data =>
    obtain ⟨v, rfl⟩ := List.length_eq_one_iff.mp (he data rfl)
    by_cases hread : a.Readable
    · have hv : loadedVal a (some [v]) = v := by
        obtain ⟨hloads, hreads⟩ := hread
        simp [loadedVal, hloads, hreads]
      rw [hv]
      unfold Fine
      by_cases hbig : v > 10
      · rw [if_pos hbig]
        exact fun _ => ⟨.inr (.inr ⟨v, rfl, .inr ⟨hbig, rfl⟩⟩), fun hn => absurd hread hn⟩
      · have hle : v ≤ 10 := UInt8.not_lt.mp hbig
        rw [if_neg hbig]
        exact fun _ => ⟨.inr (.inr ⟨v, rfl, .inl ⟨hle, rfl⟩⟩), fun hn => absurd hread hn⟩
    · rw [loadedVal_of_unread hread]
      intro hsaves
      by_cases hv : v = 1
      · -- a 1 is saved over a 1
        rw [hv]
        exact .refl _ _
      · rcases h v rfl hv with hr | hs
        · exact absurd hr hread
        · rw [hs] at hsaves
          exact absurd hsaves (by decide)

theorem saves_of_fine {a : Outcome} {v : UInt8} (hv : v ≠ 1) (hunread : ¬ a.Readable)
    (h : Fine a (some [v]) 0) : a.saves = false := by
  by_contra hsaves
  have hmove := h (by simpa using hsaves)
  have heq := hmove.2 hunread (by simp)
  simp only [Option.some.injEq, List.cons.injEq, and_true] at heq
  exact hv heq.symm

theorem stepByStep_iff (hs : OneByte s) :
    StepByStep o s ↔ ∀ v : UInt8, entry s = some [v] → v ≠ 1 →
      (o (s.boot + 1)).Readable ∨ (o (s.boot + 1)).saves = false := by
  have hsame : ∀ {ρ : Type} {c : Call ρ} {t : System},
      (∀ r u, (device o).answer c t r u → u = t) → (moveWatch o).atCall c t := fun h =>
    moveWatch_of_same fun r u hu => by rw [h r u hu]
  unfold StepByStep main
  simp only [safe_bind, safe_lift]
  constructor
  · intro h v hv hv1
    by_cases hread : (o (s.boot + 1)).Readable
    · exact .inl hread
    right
    have hload := ((h.2 () _ rfl).2 0 _ rfl).2 0 _ rfl
    obtain ⟨rc, u, hrest, hstore, hboot⟩ :=
      settingsLoad_unread (s := powerUp s) hs rfl hread hload
    have hupdate : Safe (device o) (moveWatch o) (update initial) u fun _ _ => True := by
      split_ifs at hrest <;> exact safe_printk_iff.mp hrest
    have hentry : entry u = some [v] := by rw [entry, hstore]; exact hv
    rw [safe_update_iff, hentry, hboot] at hupdate
    exact saves_of_fine hv1 hread hupdate
  · intro h
    refine ⟨hsame fun _ _ hu => hu, ?_⟩
    rintro _ t rfl
    refine ⟨hsame fun _ _ hu => hu, ?_⟩
    rintro _ t rfl
    refine ⟨hsame fun _ _ hu => hu, ?_⟩
    rintro _ t rfl
    refine (settingsLoad_spec (s := powerUp s) hs rfl).imp ?_
    rintro ⟨rc, g⟩ u ⟨hval, hstore, hboot⟩
    have hentry : entry u = entry s := by rw [entry, hstore]; rfl
    have hupdate : Safe (device o) (moveWatch o) (update g) u fun _ _ => True := by
      rw [safe_update_iff, hentry, hboot, show g.fooVal = _ from hval]
      exact fine_of_read hs h
    split_ifs <;> exact safe_printk_iff.mpr hupdate

/-! ## Every history of boots -/

/-- A call that does not touch the storage keeps its entry absent or one byte. -/
theorem safe_untouched {ρ : Type} {c : Call ρ} {R : ρ → System → Prop} (hs : OneByte s)
    (hc : ∀ r u, (device o).answer c s r u → u.store = s.store)
    (hR : ∀ r u, OneByte u → R r u) :
    Safe (device o) (.always OneByte) (liftM c) s R := by
  rw [safe_lift]
  refine ⟨hs, fun r u hu => hR r u fun data hdata => hs data ?_⟩
  rwa [entry, hc r u hu] at hdata

theorem safe_print {R : Unit → System → Prop} (m : Message) (hs : OneByte s)
    (hR : ∀ r u, OneByte u → R r u) :
    Safe (device o) (.always OneByte) (liftM (Call.printk m)) s R :=
  safe_untouched hs (fun _ u hu => by rw [show u = s from hu]) hR

theorem fooSettingsSet_oneByte {name : Name} {len : ℕ} {g : Statics} (hs : OneByte s) :
    Safe (device o) (.always OneByte) (fooSettingsSet name len g) s fun _ u => OneByte u := by
  unfold fooSettingsSet
  by_cases hname : settingsNameSteq name "bar" = some []
  · rw [if_pos hname]
    by_cases hlen : len ≠ 1
    · rw [if_pos hlen, safe_pure]
      exact hs
    · rw [if_neg hlen, safe_bind]
      apply safe_untouched hs (fun _ u hu => by rw [hu.1])
      rintro ⟨rc, data⟩ u hu
      dsimp only
      split_ifs <;> exact safe_pure.mpr hu
  · rw [if_neg hname, safe_pure]
    exact hs

theorem settingsLoad_oneByte {g : Statics} (hs : OneByte s) :
    Safe (device o) (.always OneByte) (settingsLoad g) s fun _ u => OneByte u := by
  apply Safe.repeatM_quiet (fun _ t => OneByte t) hs (fun _ _ ht => ht)
  intro x t ht
  rw [safe_bind]
  apply safe_untouched ht
  · rintro (rc | ⟨name, len⟩) u hu
    · rw [hu.2]
    · rw [hu.2.2]
  · rintro (rc | ⟨name, len⟩) u hu
    · exact safe_pure.mpr hu
    · rw [safe_bind]
      exact (fooSettingsSet_oneByte hu).imp fun _ v hv => safe_pure.mpr hv

theorem OneByte.set {data : Option (List UInt8)} (hdata : ∀ d, data = some d → d.length = 1) :
    OneByte (s.set fooBar data) := by
  intro d hd
  apply hdata
  simpa only [entry, System.set, Function.update_self] using hd

theorem update_oneByte {g : Statics} (hs : OneByte s) :
    Safe (device o) (.always OneByte) (update g) s fun _ u => OneByte u := by
  unfold update
  split_ifs
  · simp only [exampleDelete, safe_bind]
    refine safe_print _ hs fun _ t ht => safe_print _ ht fun _ t ht => ?_
    rw [safe_lift]
    refine ⟨ht, fun rc u hu => ?_⟩
    have hkept : OneByte u := by
      by_cases hworks : (o t.boot).deletes = true
      · obtain ⟨-, rfl⟩ := (if_pos hworks).mp hu
        exact .set fun _ hd => by cases hd
      · obtain ⟨-, rfl⟩ := (if_neg hworks).mp hu
        exact ht
    split_ifs <;> exact safe_print _ hkept fun _ _ hv => hv
  · rw [safe_bind, safe_lift]
    refine ⟨hs, fun rc u hu => ?_⟩
    have hkept : OneByte u := by
      by_cases hworks : (o s.boot).saves = true
      · obtain ⟨-, rfl⟩ := (if_pos hworks).mp hu
        exact .set fun _ hd => by cases hd; rfl
      · obtain ⟨-, rfl⟩ := (if_neg hworks).mp hu
        exact hs
    exact safe_print _ hkept fun _ _ hv => hv

theorem main_oneByte (hs : OneByte s) :
    Safe (device o) (.always OneByte) main (powerUp s) fun _ t => OneByte t := by
  unfold main
  simp only [safe_bind]
  refine safe_print _ (show OneByte (powerUp s) from hs) fun _ t ht => ?_
  refine safe_untouched ht (fun _ u hu => by rw [show u = t from hu]) fun _ t ht => ?_
  refine safe_untouched ht (fun _ u hu => by rw [show u = t from hu]) fun _ t ht => ?_
  refine (settingsLoad_oneByte ht).imp fun x u hu => ?_
  split_ifs <;> exact safe_bind.mpr (safe_print _ hu fun _ _ hv => update_oneByte hv)

/-- **Step by step.** After any history of boots, each with any failures and any of them cut, the
next boot moves the entry as allowed if and only if it reads the value, or there is none other than
1, or it fails to save. -/
theorem step_by_step_iff {l : List (System × Option Unit)} (hs : OneByte s)
    (h : History (device o) powerUp main s l t) :
    StepByStep o t ↔ ∀ v : UInt8, entry t = some [v] → v ≠ 1 →
      (o (t.boot + 1)).Readable ∨ (o (t.boot + 1)).saves = false :=
  stepByStep_iff (h.invariant hs fun _ hu => main_oneByte hu)

/-- A storage that holds `foo/bar = v` and nothing else. -/
def holding (v : UInt8) : System := ⟨fun name => if name = fooBar then some [v] else none, false, 0⟩

theorem oneByte_holding (v : UInt8) : OneByte (holding v) := by
  intro data hdata
  obtain rfl : [v] = data := Option.some.inj hdata
  rfl

/-- Any value may be read by a boot whose load works. -/
theorem step_by_step_holding : StepByStep (fun _ => ⟨true, true, true, true⟩) (holding 5) :=
  (step_by_step_iff (oneByte_holding 5) (.start _)).mpr fun _ _ _ => .inl ⟨rfl, rfl⟩

/-- A boot whose load fails saves a 1 over a stored 5. -/
theorem unread_overwritten : ¬ StepByStep (fun _ => ⟨false, true, true, true⟩) (holding 5) := by
  intro h
  rcases (stepByStep_iff (oneByte_holding 5)).mp h 5 rfl (by decide) with ⟨hloads, -⟩ | hsaves
  · cases hloads
  · cases hsaves

end NrfProjects.Settings
