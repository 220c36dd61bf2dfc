import NrfProjects.Settings.StepByStep

/-! # What any number of boots make of the entry

`next` is the settings demo as its user sees it: one function of the entry for each boot, whatever
fails in it. The program refines it: a complete boot leaves `next` of the entry it found, and a cut
one leaves that or the entry itself. -/

namespace NrfProjects.Settings
set_option autoImplicit false
open Interaction

/-- The entry after a boot with outcome `a`. -/
def next (a : Outcome) (e : Option (List UInt8)) : Option (List UInt8) :=
  if loadedVal a e > 10 then if a.deletes then none else e
  else if a.saves then some [loadedVal a e + 1] else e

variable {o : ℕ → Outcome} {s t : System}

/-- At any point of the boot after `s`. -/
def Between (o : ℕ → Outcome) (s t : System) : Prop :=
  t.boot = s.boot + 1 ∧ (entry t = entry s ∨ entry t = next (o (s.boot + 1)) (entry s))

/-- At a point of that boot where it has not updated the entry yet. -/
structure Before (s t : System) : Prop where
  boot : t.boot = s.boot + 1
  store : t.store = s.store

theorem Before.entry_eq (h : Before s t) : entry t = entry s := by
  rw [entry, h.store, entry]

theorem Before.between (h : Before s t) : Between o s t := ⟨h.boot, .inl h.entry_eq⟩

/-! ## One boot -/

/-- A call that leaves the storage as it is. -/
theorem safe_before {ρ : Type} {c : Call ρ} {R : ρ → System → Prop} (ht : Before s t)
    (hc : ∀ r u, (device o).answer c t r u → u.store = t.store ∧ u.boot = t.boot)
    (hR : ∀ r u, Before s u → R r u) :
    Safe (device o) (.always (Before s)) (liftM c) t R := by
  rw [safe_lift]
  refine ⟨ht, fun r u hu => hR r u ?_⟩
  obtain ⟨hstore, hboot⟩ := hc r u hu
  exact ⟨hboot.trans ht.boot, hstore.trans ht.store⟩

theorem fooSettingsSet_before {name : Name} {len : ℕ} {g : Statics} (ht : Before s t) :
    Safe (device o) (.always (Before s)) (fooSettingsSet name len g) t fun _ u => Before s u := by
  unfold fooSettingsSet
  by_cases hname : settingsNameSteq name "bar" = some []
  · rw [if_pos hname]
    by_cases hlen : len ≠ 1
    · rw [if_pos hlen, safe_pure]
      exact ht
    · rw [if_neg hlen, safe_bind]
      apply safe_before ht (fun _ u hu => by rw [hu.1]; exact ⟨rfl, rfl⟩)
      intro r u hu
      obtain ⟨rc, data⟩ := r
      dsimp only
      split_ifs
      · exact safe_pure.mpr hu
      · exact safe_pure.mpr hu
  · rw [if_neg hname, safe_pure]
    exact ht

theorem settingsLoad_before {g : Statics} (ht : Before s t) :
    Safe (device o) (.always (Before s)) (settingsLoad g) t fun _ u => Before s u := by
  apply Safe.repeatM_quiet (fun _ t => Before s t) ht (fun _ _ ht => ht)
  intro x t ht
  rw [safe_bind]
  apply safe_before ht
  · intro r u hu
    cases r with
    | inl rc => rw [hu.2]; exact ⟨rfl, rfl⟩
    | inr entry => rw [hu.2.2]; exact ⟨rfl, rfl⟩
  · intro r u hu
    cases r with
    | inl rc => exact safe_pure.mpr hu
    | inr entry =>
      rw [safe_bind]
      exact (fooSettingsSet_before hu).imp fun _ v hv => safe_pure.mpr hv

/-- The boot has updated the entry. -/
def After (o : ℕ → Outcome) (s t : System) : Prop :=
  t.boot = s.boot + 1 ∧ entry t = next (o (s.boot + 1)) (entry s)

theorem After.between (h : After o s t) : Between o s t := ⟨h.1, .inr h.2⟩

theorem safe_print_after (m : Message) (ht : After o s t) :
    Safe (device o) (.always (Between o s)) (liftM (Call.printk m)) t fun _ u => After o s u := by
  rw [safe_lift]
  refine ⟨ht.between, fun r u hu => ?_⟩
  obtain rfl : u = t := hu
  exact ht

/-- The call that updates the entry, from the point where it is as the boot found it. -/
theorem safe_set (c : Call ℤ) (works : Bool) (data : Option (List UInt8)) (ht : Before s t)
    (hc : ∀ r u, (device o).answer c t r u → u = if works then t.set fooBar data else t)
    (hnext : next (o (s.boot + 1)) (entry s) = if works then data else entry s) :
    Safe (device o) (.always (Between o s)) (liftM c) t fun _ u => After o s u := by
  rw [safe_lift]
  refine ⟨ht.between, fun r u hu => ?_⟩
  obtain rfl := hc r u hu
  cases works with
  | true =>
    refine ⟨ht.boot, ?_⟩
    rw [hnext]
    simp [entry, System.set]
  | false =>
    refine ⟨ht.boot, ?_⟩
    rw [hnext]
    exact ht.entry_eq

/-- A call that the outcome decides about leaves what the outcome says. -/
theorem eq_ite_of_answer {works : Bool} {ok failed : Prop} {u v w : System}
    (h : if works then ok ∧ w = u else failed ∧ w = v) : w = if works then u else v := by
  cases works with
  | true => exact h.2
  | false => exact h.2

theorem update_next {g : Statics} (ht : Before s t)
    (hg : g.fooVal = loadedVal (o (s.boot + 1)) (entry s)) :
    Safe (device o) (.always (Between o s)) (update g) t fun _ u => After o s u := by
  have hprint : ∀ (m : Message) (R : Unit → System → Prop), (∀ u, Before s u → R () u) →
      ∀ u, Before s u → Safe (device o) (.always (Between o s)) (liftM (Call.printk m)) u R := by
    intro m R hR u hu
    rw [safe_lift]
    refine ⟨hu.between, fun r v hv => ?_⟩
    obtain rfl : v = u := hv
    exact hR v hu
  unfold update
  by_cases hbig : g.fooVal > 10
  · rw [if_pos hbig]
    simp only [exampleDelete, safe_bind]
    refine hprint _ _ (fun u hu => hprint _ _ (fun v hv => ?_) u hu) t ht
    have hdelete := safe_set (o := o) (.settingsDelete fooBar) (o v.boot).deletes none hv
      (fun r w hw => ?_) ?_
    · apply hdelete.imp
      intro rc w hw
      split_ifs
      · exact safe_print_after _ hw
      · exact safe_print_after _ hw
    · exact eq_ite_of_answer hw
    · rw [next, ← hg, if_pos hbig, hv.boot]
  · rw [if_neg hbig, safe_bind]
    have hsave := safe_set (o := o) (.settingsSaveOne fooBar [g.fooVal + 1]) (o t.boot).saves
      (some [g.fooVal + 1]) ht (fun r w hw => ?_) ?_
    · exact hsave.imp fun rc w hw => safe_print_after _ hw
    · exact eq_ite_of_answer hw
    · rw [next, ← hg, if_neg hbig, ht.boot]

/-- **One boot** refines `next`. -/
theorem main_next (hs : OneByte s) :
    Safe (device o) (.always (Between o s)) main (powerUp s) fun _ t => After o s t := by
  have hstart : Before s (powerUp s) := ⟨rfl, rfl⟩
  have hload := (settingsLoad_spec (o := o) (s := powerUp s) hs rfl).and
    (settingsLoad_before (o := o) (g := initial) hstart)
  unfold main
  simp only [safe_bind, safe_lift]
  refine ⟨hstart.between, ?_⟩
  rintro _ t rfl
  refine ⟨hstart.between, ?_⟩
  rintro _ t rfl
  refine ⟨hstart.between, ?_⟩
  rintro _ t rfl
  apply hload.mono
  · intro t ht
    exact ht.2.between
  · intro ρ c t ht
    exact ht.2.between
  · intro x u hu
    obtain ⟨rc, g⟩ := x
    obtain ⟨⟨hval, -, -⟩, hbefore⟩ := hu
    have hupdate : ∀ m : Message, Safe (device o) (.always (Between o s))
        (do Call.printk m; update g) u fun _ t => After o s t := by
      intro m
      rw [safe_bind, safe_lift]
      refine ⟨hbefore.between, fun _ v hv => ?_⟩
      obtain rfl : v = u := hv
      exact update_next hbefore hval
    split_ifs
    · exact hupdate _
    · exact hupdate _
    · exact hupdate _

/-! ## Any number of boots -/

theorem toNat_succ {v : UInt8} (h : v.toNat ≤ (10 : UInt8).toNat) : (v + 1).toNat = v.toNat + 1 := by
  have h10 : (10 : UInt8).toNat = 10 := rfl
  have h1 : (1 : UInt8).toNat = 1 := rfl
  rw [UInt8.toNat_add, h1]
  exact Nat.mod_eq_of_lt (by omega)

/-- The value that an entry stands for. -/
def place (e : Option (List UInt8)) : ℕ := ((e.getD []).headD 0).toNat

/-- The entry is absent, or holds a value that the demo has counted up to. -/
def Counted (e : Option (List UInt8)) : Prop := e = none ∨ ∃ v : UInt8, e = some [v] ∧ v ≤ 11

theorem Counted.next {e : Option (List UInt8)} (h : Counted e) (a : Outcome) :
    Counted (next a e) := by
  unfold Settings.next
  split_ifs with hbig hdeletes hsaves
  · exact .inl rfl
  · exact h
  · refine .inr ⟨_, rfl, ?_⟩
    have hle : loadedVal a e ≤ 10 := UInt8.not_lt.mp hbig
    rw [UInt8.le_iff_toNat_le] at hle ⊢
    rw [toNat_succ hle]
    exact Nat.succ_le_succ hle
  · exact h

theorem Counted.oneByte (h : Counted (entry s)) : OneByte s := by
  intro data hdata
  rcases h with hnone | ⟨v, hv, -⟩
  · rw [hnone] at hdata
    cases hdata
  · rw [hv] at hdata
    cases hdata
    rfl

/-- **The entry stays within bounds**, whatever fails and whenever power is cut. -/
theorem entry_counted {l : List (System × Option Unit)} (hs : Counted (entry s))
    (h : History (device o) powerUp main s l t) : Counted (entry t) := by
  apply h.invariant (I := fun t => Counted (entry t)) hs
  intro s hs
  have hbetween : ∀ t, Between o s t → Counted (entry t) := by
    intro t ht
    rcases ht.2 with heq | heq
    · rw [heq]
      exact hs
    · rw [heq]
      exact hs.next _
  apply (main_next hs.oneByte).mono
  · exact hbetween
  · intro ρ c t ht
    exact hbetween t ht
  · intro _ t ht
    exact hbetween t ht.between

/-- Everything works. -/
def perfect : Outcome := ⟨true, true, true, true⟩

def empty : System := ⟨fun _ => none, false, 0⟩

def reply {ρ : Type} : Call ρ → System → Option (ρ × System)
  | .settingsSubsysInit, s => some (0, s)
  | .settingsRegister, s => some (0, s)
  | .loadNext _, s =>
    match entry s with
    | some data =>
      if s.handed then some (.inl 0, s)
      else some (.inr (["bar"], data.length), { s with handed := true })
    | none => some (.inl 0, s)
  | .readCb name len, s =>
    (s.store ("foo" :: name)).map fun data => (((data.take len).length, data.take len), s)
  | .settingsSaveOne name data, s => some (0, s.set name (some data))
  | .settingsDelete name, s => some (0, s.set name none)
  | .printk _, s => some ((), s)

theorem reply_follows : Script.Follows reply (device fun _ => perfect) := by
  intro ρ c s r t h
  refine ⟨s, .refl, ?_⟩
  cases c with
  | loadNext handled =>
    simp only [reply] at h
    split at h
    · next data hdata =>
      split at h
      · next hhanded =>
        cases h
        exact ⟨fun _ _ => hhanded, rfl⟩
      · next hhanded =>
        cases h
        rw [Bool.not_eq_true] at hhanded
        refine ⟨⟨data, hdata, rfl⟩, fun _ => ⟨rfl, hhanded⟩, ?_⟩
        rw [hhanded]
        rfl
    · next hnone =>
      cases h
      exact ⟨fun _ hne => absurd hnone hne, rfl⟩
  | readCb name len =>
    obtain ⟨data, hdata, heq⟩ := Option.map_eq_some_iff.mp h
    cases heq
    exact ⟨rfl, data, hdata, rfl⟩
  | settingsSaveOne | settingsDelete =>
    cases h
    exact ⟨rfl, rfl⟩
  | _ =>
    cases h
    rfl

/-- Two boots to their ends, and one that is cut while it loads. -/
theorem first_boots : ∃ s t u,
    Boot (device fun _ => perfect) powerUp main empty (some ()) s ∧
      Boot (device fun _ => perfect) powerUp main s (some ()) t ∧
      Boot (device fun _ => perfect) powerUp main t none u :=
  ⟨_, _, _, .of_replay reply_follows 20 (Prod.ext (by rfl) rfl),
    .of_replay reply_follows 20 (Prod.ext (by rfl) rfl), .cut (replay_steps reply_follows 6 _)⟩

theorem entry_counted_first : ∃ s t u,
    History (device fun _ => perfect) powerUp main empty
        [(empty, some ()), (s, some ()), (t, none)] u ∧ Counted (entry u) := by
  obtain ⟨s, t, u, hfirst, hsecond, hcut⟩ := first_boots
  have h := (((History.start _).boot hfirst).boot hsecond).boot hcut
  exact ⟨s, t, u, h, entry_counted (.inl rfl) h⟩

theorem next_perfect {e : Option (List UInt8)} (he : place e ≤ 11) :
    next perfect e = if place e = 11 then none else some [UInt8.ofNat (place e + 1)] := by
  have hval : loadedVal perfect e = (e.getD []).headD 0 := rfl
  unfold place at he ⊢
  rw [next, hval]
  generalize (e.getD []).headD 0 = v at he
  by_cases hbig : v > 10
  · have hlt : 10 < v.toNat := UInt8.lt_iff_toNat_lt.mp hbig
    have heq : v.toNat = 11 := by omega
    rw [if_pos hbig, if_pos heq]
    rfl
  · have hle : v.toNat ≤ 10 := UInt8.le_iff_toNat_le.mp (UInt8.not_lt.mp hbig)
    have hne : v.toNat ≠ 11 := by omega
    rw [if_neg hbig, if_neg hne, ← toNat_succ hle, UInt8.ofNat_toNat]
    rfl

theorem place_next {e : Option (List UInt8)} (he : place e ≤ 11) :
    place (next perfect e) = (place e + 1) % 12 := by
  rw [next_perfect he]
  split_ifs with heq
  · rw [heq]
    rfl
  · have hlt : place e + 1 < 256 := by omega
    show (UInt8.ofNat (place e + 1)).toNat = _
    rw [UInt8.toNat_ofNat', Nat.mod_eq_of_lt hlt]
    omega

/-- **The cycle.** When every boot works and runs to its end, the value goes round modulo 12, and
0 is the absent entry. -/
theorem entry_cycle {l : List (System × Option Unit)} (hs : OneByte s) (hplace : place (entry s) ≤ 11)
    (h : History (device fun _ => perfect) powerUp main s l t) (hl : ∀ b ∈ l, b.2 ≠ none) :
    place (entry t) = (place (entry s) + l.length) % 12 ∧
      (l ≠ [] → entry t = if place (entry t) = 0 then none
        else some [UInt8.ofNat (place (entry t))]) := by
  suffices hword : OneByte t ∧ place (entry t) = (place (entry s) + l.length) % 12 ∧
      (l ≠ [] → entry t = if place (entry t) = 0 then none
        else some [UInt8.ofNat (place (entry t))]) from hword.2
  induction h with
  | start => exact ⟨hs, (Nat.mod_eq_of_lt (Nat.lt_succ_of_le hplace)).symm, fun hne => absurd rfl hne⟩
  | @boot u t l r hl' hb ih =>
    obtain ⟨hu, hvalue, -⟩ := ih fun b hb => hl b (List.mem_append_left _ hb)
    have hle : place (entry u) ≤ 11 := by omega
    cases r with
    | none => exact absurd rfl (hl (u, none) (by simp))
    | some r =>
      have hafter : After (fun _ => perfect) u t := by
        cases hb with
        | finished hs => exact (main_next hu).result hs
      have hentry : entry t = _ := hafter.2.trans (next_perfect hle)
      have hplace' : place (entry t) = (place (entry u) + 1) % 12 := by
        rw [hafter.2]
        exact place_next hle
      refine ⟨?_, ?_, fun _ => ?_⟩
      · intro data hdata
        rw [hentry] at hdata
        split_ifs at hdata
        cases hdata
        rfl
      · rw [hplace', hvalue, Nat.mod_add_mod, List.length_append, List.length_singleton,
          Nat.add_assoc]
      · rw [hplace', hentry]
        by_cases heq : place (entry u) = 11
        · rw [if_pos heq, heq]
          rfl
        · have hmod : (place (entry u) + 1) % 12 = place (entry u) + 1 := by omega
          rw [if_neg heq, hmod, if_neg (Nat.succ_ne_zero _)]

/-- The second boot saves a 2. -/
theorem entry_cycle_first : ∃ s t,
    History (device fun _ => perfect) powerUp main empty [(empty, some ()), (s, some ())] t ∧
      entry t = some [2] := by
  obtain ⟨s, t, _, hfirst, hsecond, -⟩ := first_boots
  have h := ((History.start _).boot hfirst).boot hsecond
  obtain ⟨hplace, hentry⟩ := entry_cycle (fun _ hd => by cases hd) (Nat.zero_le _) h (by simp)
  have htwo : place (entry t) = 2 := hplace
  refine ⟨s, t, h, ?_⟩
  rw [hentry (by simp), htwo]
  rfl

end NrfProjects.Settings
