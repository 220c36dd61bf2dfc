import NrfProjects.Interaction.Calls
import NrfProjects.Interrupts.Statistics

/-! # What the console says about the interrupts

The lines of the two handlers and of `main` come in any order. Each handler's lines still number its
interrupts, and each total is how many there were at a moment between its title and itself. -/

namespace NrfProjects.Interrupts
set_option autoImplicit false
open Interaction

def isFired : Message → Bool
  | .buttonFired _ => true
  | .timerFired _ => true
  | _ => false

def buttonNumber : Message → Option UInt32
  | .buttonFired n => some n
  | _ => none

def timerNumber : Message → Option UInt32
  | .timerFired n => some n
  | _ => none

def totalNumber : Message → Option UInt32
  | .total n => some n
  | _ => none

/-- How many lines are a handler's. -/
def firings (console : List Message) : ℕ := console.countP isFired

/-- The numbers from 1 to `n`, modulo 2³². -/
def numbered (n : ℕ) : List UInt32 := (List.range n).map fun i => .ofNat (i + 1)

/-- A report has been opened after `before`, and has only a handler's lines so far. -/
def Opened (before console : List Message) : Prop :=
  ∃ since, console = before ++ .statistics :: since ∧ ∀ m ∈ since, isFired m = true

/-- The total `n` is how many interrupts there were, modulo 2³², at a moment since the report was
opened. -/
def Timely (console : List Message) (n : UInt32) : Prop :=
  ∃ before k, Opened before console ∧ n = .ofNat k ∧ firings before ≤ k ∧ k ≤ firings console

/-- The totals are for one moment after the other, up to `limit` interrupts. -/
def Ordered (limit : ℕ) (console : List Message) : Prop :=
  ∃ ks : List ℕ, console.filterMap totalNumber = ks.map .ofNat ∧ ks.Pairwise (· ≤ ·) ∧
    ∀ k ∈ ks, k ≤ limit

structure Accounted (console : List Message) (fired : Mark) : Prop where
  firings : firings console = fired.presses + fired.expiries
  buttons : console.filterMap buttonNumber = numbered fired.presses
  timers : console.filterMap timerNumber = numbered fired.expiries
  timely : ∀ before n after, console = before ++ .total n :: after → Timely before n
  ordered : Ordered (Interrupts.firings console) console

variable {console before : List Message} {fired : Mark} {m : Message} {n : UInt32} {k limit : ℕ}

/-! ## One more line -/

theorem firings_append (console : List Message) (m : Message) :
    firings (console ++ [m]) = firings console + if isFired m then 1 else 0 := by
  unfold firings
  rw [List.countP_append, List.countP_singleton]

theorem numbered_succ (n : ℕ) : numbered (n + 1) = numbered n ++ [.ofNat (n + 1)] := by
  unfold numbered
  rw [List.range_succ, List.map_append]
  rfl

theorem filterMap_append (f : Message → Option UInt32) (m : Message) :
    (console ++ [m]).filterMap f = console.filterMap f ++ (f m).toList := by
  rw [List.filterMap_append]
  cases hm : f m <;> simp [hm]

theorem filterMap_append_none {f : Message → Option UInt32} (hm : f m = none) :
    (console ++ [m]).filterMap f = console.filterMap f := by
  rw [filterMap_append, hm, Option.toList_none, List.append_nil]

theorem number_eq_none (hm : isFired m = false) : buttonNumber m = none ∧ timerNumber m = none := by
  cases m with
  | buttonFired n => cases hm
  | timerFired n => cases hm
  | _ => exact ⟨rfl, rfl⟩

/-- Where a line of a longer console is. -/
theorem append_eq_append_singleton {after : List Message} {x : Message}
    (h : console ++ [m] = before ++ x :: after) :
    console = before ∧ m = x ∨ ∃ after', console = before ++ x :: after' := by
  cases List.eq_nil_or_concat after with
  | inl hnil =>
    subst hnil
    obtain ⟨hconsole, hm⟩ := List.append_inj' h rfl
    exact .inl ⟨hconsole, List.head_eq_of_cons_eq hm⟩
  | inr hlast =>
    obtain ⟨after', y, rfl⟩ := hlast
    rw [List.concat_eq_append, ← List.cons_append, ← List.append_assoc] at h
    exact .inr ⟨after', (List.append_inj' h rfl).1⟩

theorem Opened.fire (h : Opened before console) (hm : isFired m = true) :
    Opened before (console ++ [m]) := by
  obtain ⟨since, rfl, hsince⟩ := h
  refine ⟨since ++ [m], by simp, fun x hx => ?_⟩
  cases List.mem_append.mp hx with
  | inl hx => exact hsince x hx
  | inr hx =>
    obtain rfl := List.mem_singleton.mp hx
    exact hm

theorem Ordered.mono (h : Ordered limit console) {limit' : ℕ} (hle : limit ≤ limit') :
    Ordered limit' console := by
  obtain ⟨ks, hks, hordered, hlimit⟩ := h
  exact ⟨ks, hks, hordered, fun k hk => Nat.le_trans (hlimit k hk) hle⟩

theorem Ordered.append (h : Ordered limit console) (hm : totalNumber m = none) :
    Ordered limit (console ++ [m]) := by
  obtain ⟨ks, hks, hordered, hlimit⟩ := h
  exact ⟨ks, (filterMap_append_none hm).trans hks, hordered, hlimit⟩

theorem Ordered.total (h : Ordered limit console) (hle : limit ≤ k) :
    Ordered k (console ++ [.total (.ofNat k)]) := by
  obtain ⟨ks, hks, hordered, hlimit⟩ := h
  refine ⟨ks ++ [k], ?_, ?_, fun j hj => ?_⟩
  · rw [filterMap_append, hks, List.map_append]
    rfl
  · rw [List.pairwise_append]
    refine ⟨hordered, List.pairwise_singleton _ _, fun j hj i hi => ?_⟩
    obtain rfl := List.mem_singleton.mp hi
    exact Nat.le_trans (hlimit j hj) hle
  · cases List.mem_append.mp hj with
    | inl hj => exact Nat.le_trans (hlimit j hj) hle
    | inr hj => exact Nat.le_of_eq (List.mem_singleton.mp hj)

namespace Accounted

theorem timely_append (h : Accounted console fired) (hm : ∀ n, m = .total n → Timely console n) :
    ∀ before n after, console ++ [m] = before ++ .total n :: after → Timely before n := by
  intro before n after heq
  cases append_eq_append_singleton heq with
  | inl hlast =>
    obtain ⟨rfl, rfl⟩ := hlast
    exact hm n rfl
  | inr hprev =>
    obtain ⟨after', hconsole⟩ := hprev
    exact h.timely before n after' hconsole

/-- Any line, after `fired` interrupts before it and `fired'` with it. -/
theorem append (h : Accounted console fired) {fired' : Mark}
    (hfired : fired'.presses + fired'.expiries =
      fired.presses + fired.expiries + if isFired m then 1 else 0)
    (hbuttons : numbered fired.presses ++ (buttonNumber m).toList = numbered fired'.presses)
    (htimers : numbered fired.expiries ++ (timerNumber m).toList = numbered fired'.expiries)
    (htimely : ∀ n, m = .total n → Timely console n)
    (hordered : Ordered (Interrupts.firings (console ++ [m])) (console ++ [m])) :
    Accounted (console ++ [m]) fired' where
  firings := by rw [firings_append, h.firings, hfired]
  buttons := by rw [filterMap_append, h.buttons, hbuttons]
  timers := by rw [filterMap_append, h.timers, htimers]
  timely := h.timely_append htimely
  ordered := hordered

/-- A line that is not a handler's. -/
theorem append_plain (h : Accounted console fired) (hm : isFired m = false)
    (htimely : ∀ n, m = .total n → Timely console n)
    (hordered : Ordered (Interrupts.firings console) (console ++ [m])) :
    Accounted (console ++ [m]) fired := by
  obtain ⟨hbutton, htimer⟩ := number_eq_none hm
  apply h.append _ _ _ htimely
  · rw [firings_append, hm]
    exact hordered
  · rw [hm]
    rfl
  · rw [hbutton]
    exact List.append_nil _
  · rw [htimer]
    exact List.append_nil _

/-- A line of `main` that is not a total. -/
theorem print (h : Accounted console fired) (hm : isFired m = false) (htotal : totalNumber m = none) :
    Accounted (console ++ [m]) fired := by
  apply h.append_plain hm _ (h.ordered.append htotal)
  intro n hn
  rw [hn] at htotal
  cases htotal

theorem ordered_fired (h : Accounted console fired) (htotal : totalNumber m = none) :
    Ordered (Interrupts.firings (console ++ [m])) (console ++ [m]) := by
  apply (h.ordered.append htotal).mono
  rw [firings_append]
  exact Nat.le_add_right _ _

theorem buttonFired (h : Accounted console fired) :
    Accounted (console ++ [.buttonFired (.ofNat (fired.presses + 1))])
      { fired with presses := fired.presses + 1 } :=
  h.append (Nat.add_right_comm _ _ _) (numbered_succ _).symm (List.append_nil _) nofun
    (h.ordered_fired rfl)

theorem timerFired (h : Accounted console fired) :
    Accounted (console ++ [.timerFired (.ofNat (fired.expiries + 1))])
      { fired with expiries := fired.expiries + 1 } :=
  h.append (Nat.add_assoc _ _ _).symm (List.append_nil _) (numbered_succ _).symm nofun
    (h.ordered_fired rfl)

/-- A total that was read since the report was opened. -/
theorem total (h : Accounted console fired) (hopened : Opened before console)
    (hordered : Ordered (Interrupts.firings before) console)
    (hlow : Interrupts.firings before ≤ k) (hhigh : k ≤ Interrupts.firings console) :
    Accounted (console ++ [.total (.ofNat k)]) fired := by
  apply h.append_plain rfl _ ((hordered.total hlow).mono hhigh)
  intro n hn
  cases hn
  exact ⟨before, k, hopened, rfl, hlow, hhigh⟩

end Accounted

/-! ## Between two lines -/

structure Kept (s : System) : Prop where
  counted : Counted s
  accounted : Accounted s.console s.fired

/-- A report is open, and its total is to be read and printed. -/
structure Titled (before : List Message) (s : System) : Prop where
  kept : Kept s
  opened : Opened before s.console
  ordered : Ordered (firings before) s.console

/-- The total has been read. -/
def HasRead (n : UInt32) (s : System) : Prop :=
  ∃ before k, Titled before s ∧ n = .ofNat k ∧ firings before ≤ k ∧ k ≤ firings s.console

theorem Opened.le (h : Opened before console) : firings before ≤ firings console := by
  obtain ⟨since, rfl, -⟩ := h
  unfold firings
  rw [List.countP_append]
  exact Nat.le_add_right _ _

theorem Kept.moves {s t : System} (hs : Kept s) (hm : device.move s t) :
    Kept t ∧ ∃ m, t.console = s.console ++ [m] ∧ isFired m = true := by
  have hcounted := counted_stable s t hm hs.counted
  cases hm with
  | inl h =>
    subst h
    have hline := hs.accounted.buttonFired
    rw [ofNat_succ, ← Mark.button, ← hs.counted.button] at hline
    exact ⟨⟨hcounted, hline⟩, _, rfl, rfl⟩
  | inr h =>
    subst h
    have hline := hs.accounted.timerFired
    rw [ofNat_succ, ← Mark.timer, ← hs.counted.timer] at hline
    exact ⟨⟨hcounted, hline⟩, _, rfl, rfl⟩

theorem titled_stable (before : List Message) : device.Stable (Titled before) := by
  intro s t hm hs
  obtain ⟨hkept, m, hconsole, hfired⟩ := hs.kept.moves hm
  have htotal : totalNumber m = none := by
    cases m with
    | total n => cases hfired
    | _ => rfl
  refine ⟨hkept, ?_, ?_⟩
  · rw [hconsole]
    exact hs.opened.fire hfired
  · rw [hconsole]
    exact hs.ordered.append htotal

theorem hasRead_stable (n : UInt32) : device.Stable (HasRead n) := by
  intro s t hm hs
  obtain ⟨before, k, hs, hn, hlow, hhigh⟩ := hs
  obtain ⟨-, m, hconsole, hfired⟩ := hs.kept.moves hm
  refine ⟨before, k, titled_stable before s t hm hs, hn, hlow, ?_⟩
  rw [hconsole, firings_append]
  exact Nat.le_add_right_of_le hhigh

/-- What a call of `main` prints is neither a handler's line nor a total. -/
def plain {ρ : Type} : Call ρ → Prop
  | .printk m => isFired m = false ∧ totalNumber m = none
  | _ => True

theorem print_console (s : System) (m : Message) : (s.print m).console = s.console ++ [m] := by
  unfold System.print
  split_ifs
  · rfl
  · rfl

theorem print_fired (s : System) (m : Message) : (s.print m).fired = s.fired := by
  unfold System.print
  split_ifs
  · rfl
  · rfl

theorem Kept.print {s : System} {m : Message} (hs : Kept s)
    (hm : Accounted (s.console ++ [m]) s.fired) : Kept (s.print m) := by
  constructor
  · unfold System.print
    split_ifs
    · exact ⟨hs.counted.button, hs.counted.timer, hs.counted.total⟩
    · exact ⟨hs.counted.button, hs.counted.timer, hs.counted.total⟩
  · rw [print_console, print_fired]
    exact hm

theorem Kept.mark {s : System} (hs : Kept s) : Kept s.mark :=
  ⟨⟨hs.counted.button, hs.counted.timer, hs.counted.total⟩, hs.accounted⟩

theorem Kept.answer {ρ : Type} {c : Call ρ} {s t : System} {r : ρ} (hs : Kept s) (hc : plain c)
    (ha : device.answer c s r t) : Kept t := by
  cases c with
  | printk m =>
    obtain rfl : t = s.print m := ha
    exact hs.print (hs.accounted.print hc.1 hc.2)
  | buttonInterruptCount | timerInterruptCount | totalInterruptCount =>
    obtain ⟨-, rfl⟩ := ha
    exact hs.mark
  | _ =>
    obtain rfl : t = s := ha
    exact hs

end NrfProjects.Interrupts
