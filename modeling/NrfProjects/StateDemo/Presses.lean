import Mathlib.Data.List.Pairwise
import Mathlib.Data.Nat.Basic
import Mathlib.Order.Basic
import NrfProjects.StateDemo.Main

/-! # Presses, wake-ups and transitions

Each wake-up sees the presses posted since its wait cleared the event object, so the wake-ups see
disjoint runs of presses, none of them empty. A press is seen exactly when it is posted while
`main` is inside `k_event_wait`; the reset of the next wait throws any other away. -/

namespace NrfProjects.StateDemo
set_option autoImplicit false
open Interaction

/-! ## The invariant -/

/-- No wake-up to come can see the presses before this one. -/
def horizon (s : State) : ℕ := if s.waiting then s.clearedAt else s.presses

structure Inv (s : State) : Prop where
  bits : s.smfEvent = if s.clearedAt < s.presses then EVENT_BTN_PRESS else 0
  cleared : s.clearedAt ≤ s.presses
  seen : ∀ w ∈ s.wakes, w.first < w.last ∧ w.last ≤ horizon s
  fresh : s.wakes.Pairwise fun v w => v.last ≤ w.first
  init : ∀ w ∈ s.wakes, ∀ n, s.initAt = some n → n ≤ w.first
  outside : s.outside = 0 ↔ ∀ i < horizon s, ∃ w ∈ s.wakes, w.Saw i

theorem horizon_le_press (s : State) : horizon s ≤ horizon (buttonPressed s) := by
  cases hw : s.waiting <;> simp [horizon, buttonPressed, kEventPost, hw]

theorem Inv.press {s : State} (h : Inv s) : Inv (buttonPressed s) := by
  have hlt : s.clearedAt < s.presses + 1 := Nat.lt_succ_of_le h.cleared
  constructor
  case bits =>
    have hb : s.smfEvent ||| EVENT_BTN_PRESS = EVENT_BTN_PRESS := by
      rw [h.bits]
      split <;> rfl
    simp [buttonPressed, kEventPost, hb, hlt]
  case cleared => exact hlt.le
  case fresh => exact h.fresh
  case init => exact h.init
  case seen =>
    intro w hw
    have hs := h.seen w hw
    exact ⟨hs.1, hs.2.trans (horizon_le_press s)⟩
  case outside =>
    have ho := h.outside
    cases hwait : s.waiting with
    | true => simpa [buttonPressed, kEventPost, horizon, hwait] using ho
    | false =>
      -- the new press is past every wake-up so far
      have hnew : ¬ ∃ w ∈ s.wakes, w.Saw s.presses := by
        rintro ⟨w, hw, hsaw⟩
        have hle := (h.seen w hw).2
        simp only [horizon, hwait] at hle
        exact absurd hsaw.2 (by simpa using hle)
      constructor
      · intro h0
        simp [buttonPressed, kEventPost, hwait] at h0
      · intro hall
        have hlast : s.presses < horizon (buttonPressed s) := by
          simp [horizon, buttonPressed, kEventPost, hwait]
        exact absurd (hall _ hlast) hnew

theorem horizon_waiting {s : State} (h : s.waiting = true) : horizon s = s.clearedAt := by
  simp [horizon, h]

theorem horizon_not_waiting {s : State} (h : s.waiting = false) : horizon s = s.presses := by
  simp [horizon, h]

/-- Clearing the event object while no wait is under way keeps the horizon. -/
theorem Inv.clear {s t : State} (h : Inv s) (hw : s.waiting = false)
    (hbits : t.smfEvent = 0) (hcl : t.clearedAt = s.presses) (hp : t.presses = s.presses)
    (hwakes : t.wakes = s.wakes) (hout : t.outside = s.outside)
    (hinit : ∀ w ∈ s.wakes, ∀ n, t.initAt = some n → n ≤ w.first) : Inv t := by
  have hh : horizon t = horizon s := by
    rw [horizon_not_waiting hw]
    simp [horizon, hcl, hp]
  constructor
  case bits => simp [hbits, hcl, hp]
  case cleared => exact (hcl.trans hp.symm).le
  case seen => rw [hwakes, hh]; exact h.seen
  case fresh => rw [hwakes]; exact h.fresh
  case init => rw [hwakes]; exact hinit
  case outside => rw [hwakes, hh, hout]; exact h.outside

/-- A wake-up takes the presses since the clear, of which there is at least one. -/
theorem Inv.wake {s : State} (h : Inv s) (hw : s.waiting = true)
    (hbit : s.smfEvent &&& EVENT_BTN_PRESS ≠ 0) (hinit : ∀ n, s.initAt = some n → n ≤ s.clearedAt) :
    Inv { s with waiting := false, wakes := s.wakes ++ [⟨s.clearedAt, s.presses⟩] } := by
  have hlt : s.clearedAt < s.presses := by
    by_contra hge
    rw [h.bits, if_neg hge] at hbit
    exact hbit rfl
  have hseen : ∀ w ∈ s.wakes, w.first < w.last ∧ w.last ≤ s.clearedAt := by
    simpa [horizon_waiting hw] using h.seen
  have hout := h.outside
  rw [horizon_waiting hw] at hout
  constructor
  case bits => exact h.bits
  case cleared => exact h.cleared
  case seen =>
    intro w hw'
    simp only [horizon_not_waiting]
    rcases List.mem_append.mp hw' with hold | hnew
    · have hs := hseen w hold
      exact ⟨hs.1, hs.2.trans h.cleared⟩
    · obtain rfl := List.mem_singleton.mp hnew
      exact ⟨hlt, Nat.le_refl _⟩
  case fresh =>
    refine List.pairwise_append.mpr ⟨h.fresh, List.pairwise_singleton _ _, ?_⟩
    intro v hv w hw'
    obtain rfl := List.mem_singleton.mp hw'
    exact (hseen v hv).2
  case init =>
    intro w hw' n hn
    rcases List.mem_append.mp hw' with hold | hnew
    · exact h.init w hold n hn
    · obtain rfl := List.mem_singleton.mp hnew
      exact hinit n hn
  case outside =>
    simp only [horizon_not_waiting, List.mem_append, List.mem_singleton]
    rw [hout]
    constructor
    · intro hall i hi
      by_cases hc : i < s.clearedAt
      · obtain ⟨w, hw', hsaw⟩ := hall i hc
        exact ⟨w, .inl hw', hsaw⟩
      · exact ⟨_, .inr rfl, Nat.le_of_not_lt hc, hi⟩
    · intro hall i hi
      obtain ⟨w, hw' | rfl, hsaw⟩ := hall i (hi.trans hlt)
      · exact ⟨w, hw', hsaw⟩
      · exact absurd hsaw.1 (Nat.not_le_of_lt hi)

/-! ## The phases of a round -/

/-- The state after `n` transitions. -/
def parity (n : ℕ) : DemoState := if n % 2 = 0 then .S0 else .S1

def DemoState.next : DemoState → DemoState
  | .S0 => .S1
  | .S1 => .S0

theorem parity_succ (n : ℕ) : parity (n + 1) = (parity n).next := by
  rcases Nat.mod_two_eq_zero_or_one n with h | h
  · simp [parity, h, Nat.add_mod, DemoState.next]
  · simp [parity, h, Nat.add_mod, DemoState.next]

theorem run_eq (st : DemoState) : (demoStates st).run = runTo st.next := by
  cases st <;> rfl

/-- Where `main` is in a round: the wake-ups that have not moved the machine yet, and those whose
round is not completed. -/
structure Phase (waiting : Bool) (woken ran : ℕ) (s : State) : Prop extends Inv s where
  waits : s.waiting = waiting
  moved : s.wakes.length = s.transitions + woken
  done : s.wakes.length = s.iterations + ran
  state : s.current = some (parity s.transitions)
  terminate : s.terminateVal = 0
  started : ∃ n, s.initAt = some n ∧ n ≤ s.clearedAt

theorem Phase.stable (w : Bool) (a b : ℕ) : device.Stable (Phase w a b) := by
  rintro s t ⟨_, rfl⟩ hs
  exact { hs with toInv := hs.press }

/-- What holds once the event object is initialised. -/
structure Settled (s : State) : Prop extends Inv s where
  moved : s.transitions ≤ s.wakes.length ∧ s.wakes.length ≤ s.transitions + 1

theorem Phase.settled {w : Bool} {a b : ℕ} {s : State} (h : Phase w a b s) (ha : a ≤ 1) :
    Settled s :=
  { h.toInv with moved := by have := h.moved; omega }

def watch : Watch Call State where
  atLoop := Phase false 0 0
  atCall
    | .kEventBlock _, s => Phase true 0 0 s
    | _, s => s.initAt ≠ none → Settled s

abbrev At {α : Type} (P : State → Prop) (p : Prog Call α) (Q : α → State → Prop) : Prop :=
  Triple device watch P p Q

theorem kEventReset_spec :
    At (Phase false 0 0) (liftM Call.kEventReset) fun _ => Phase true 0 0 := by
  refine Triple.lift (Phase.stable _ _ _) (fun _ => Phase.stable _ _ _)
    (fun s hs _ => hs.settled (by omega)) ?_
  rintro s _ t hs rfl
  obtain ⟨n, hn, hle⟩ := hs.started
  have hinv := hs.toInv.clear (t := { s with smfEvent := 0, clearedAt := s.presses, waiting := true })
    hs.waits rfl rfl rfl rfl rfl hs.init
  exact { hs with
    toInv := hinv
    waits := rfl
    started := ⟨n, hn, hle.trans hs.cleared⟩ }

theorem kEventBlock_spec :
    At (Phase true 0 0) (liftM (Call.kEventBlock EVENT_BTN_PRESS)) fun r s =>
      Phase false 1 1 s ∧ r &&& EVENT_BTN_PRESS ≠ 0 := by
  refine Triple.lift (Phase.stable _ _ _) (fun r s t hm hs => ⟨Phase.stable _ _ _ s t hm hs.1, hs.2⟩)
    (fun s hs => hs) ?_
  rintro s r t hs ⟨hbit, rfl, rfl⟩
  obtain ⟨n, hn, hle⟩ := hs.started
  have hinv := hs.toInv.wake hs.waits hbit fun m hm => by
    obtain rfl : n = m := by simpa [hn] using hm
    exact hle
  refine ⟨{ hs with
    toInv := hinv
    waits := rfl
    moved := by simp [hs.moved]
    done := by simp [hs.done] }, ?_⟩
  rw [BitVec.and_assoc, BitVec.and_self]
  exact hbit

/-- `s_obj.events` holds the event of the wake-up under way. -/
def Noted (s : State) : Prop := Phase false 1 1 s ∧ s.events &&& EVENT_BTN_PRESS ≠ 0

theorem Noted.stable : device.Stable Noted := by
  rintro s t hm ⟨hs, he⟩
  refine ⟨Phase.stable _ _ _ s t hm hs, ?_⟩
  obtain ⟨_, rfl⟩ := hm
  exact he

theorem setEvents_spec (e : BitVec 32) :
    At (fun s => Phase false 1 1 s ∧ e &&& EVENT_BTN_PRESS ≠ 0) (liftM (Call.setEvents e))
      fun _ => Noted := by
  refine Triple.lift (fun s t hm hs => ⟨Phase.stable _ _ _ s t hm hs.1, hs.2⟩)
    (fun _ => Noted.stable) (fun s hs _ => hs.1.settled (by omega)) ?_
  rintro s _ t ⟨hs, he⟩ rfl
  exact ⟨{ hs with toInv := { hs.toInv with } }, he⟩

theorem printk_spec (text : String) (b : ℕ) :
    At (Phase false 0 b) (liftM (Call.printk text)) fun _ => Phase false 0 b := by
  refine Triple.lift (Phase.stable _ _ _) (fun _ => Phase.stable _ _ _)
    (fun s hs _ => hs.settled (by omega)) ?_
  rintro s _ t hs rfl
  exact hs

theorem entry_spec (st : DemoState) (b : ℕ) :
    At (Phase false 0 b) (entry st) fun _ => Phase false 0 b := by
  cases st
  · exact printk_spec _ b
  · exact printk_spec _ b

/-- In state `st`, with the event of a wake-up to handle. -/
def Handling (st : DemoState) (s : State) : Prop := Noted s ∧ parity s.transitions = st

theorem Handling.stable (st : DemoState) : device.Stable (Handling st) := by
  rintro s t hm ⟨hs, hp⟩
  refine ⟨Noted.stable s t hm hs, ?_⟩
  obtain ⟨_, rfl⟩ := hm
  exact hp

theorem smfSetState_spec (st : DemoState) :
    At (Handling st) (smfSetState st.next) fun _ => Phase false 0 1 := by
  have hset : At (Handling st) (liftM (Call.smfSetCurrent st.next)) fun _ => Phase false 0 1 := by
    refine Triple.lift (Handling.stable st) (fun _ => Phase.stable _ _ _)
      (fun s hs _ => hs.1.1.settled (by omega)) ?_
    rintro s _ t ⟨⟨hs, -⟩, rfl⟩ rfl
    exact { hs with
      toInv := { hs.toInv with }
      state := by simp [parity_succ] }
  exact hset.bind fun _ => entry_spec _ 1

/-- The run function of the current state moves the machine to the other one. -/
theorem run_spec (st : DemoState) :
    At (Handling st) (demoStates st).run fun _ => Phase false 0 1 := by
  have hevents : At (Handling st) (liftM Call.events) fun e s =>
      Handling st s ∧ e &&& EVENT_BTN_PRESS ≠ 0 := by
    refine Triple.lift (Handling.stable st)
      (fun e s t hm hs => ⟨Handling.stable st s t hm hs.1, hs.2⟩)
      (fun s hs _ => hs.1.1.settled (by omega)) ?_
    rintro s e t hs ⟨rfl, rfl⟩
    exact ⟨hs, hs.1.2⟩
  rw [run_eq]
  refine hevents.bind fun e => ?_
  by_cases he : e &&& EVENT_BTN_PRESS ≠ 0
  · rw [if_pos he]
    exact (smfSetState_spec st).conseq (fun _ hs => hs.1) fun _ _ hs => hs
  · intro s hs
    exact absurd hs.2 he

theorem smfRunState_spec :
    At Noted smfRunState fun r s => r = 0 ∧ Phase false 0 0 s := by
  have hcurrent : At Noted (liftM Call.smfCurrent) Handling := by
    refine Triple.lift Noted.stable Handling.stable (fun s hs _ => hs.1.settled (by omega)) ?_
    rintro s st t hs ⟨hst, rfl⟩
    refine ⟨hs, ?_⟩
    rw [hs.1.state] at hst
    exact Option.some.inj hst
  have hval : At (Phase false 0 1) (liftM Call.smfTerminateVal) fun r s =>
      r = 0 ∧ Phase false 0 0 s := by
    refine Triple.lift (Phase.stable _ _ _)
      (fun r s t hm hs => ⟨hs.1, Phase.stable _ _ _ s t hm hs.2⟩)
      (fun s hs _ => hs.settled (by omega)) ?_
    rintro s r t hs ⟨rfl, rfl⟩
    exact ⟨hs.terminate, { hs with toInv := { hs.toInv with } }⟩
  exact hcurrent.bind fun st => (run_spec st).bind fun _ => hval

theorem iteration_spec :
    At (Phase false 0 0) iteration fun x s => x = .inl () ∧ Phase false 0 0 s := by
  have hwait : At (Phase false 0 0) (kEventWait EVENT_BTN_PRESS true) fun r s =>
      Phase false 1 1 s ∧ r &&& EVENT_BTN_PRESS ≠ 0 :=
    kEventReset_spec.bind fun _ => kEventBlock_spec
  refine hwait.bind fun e => (setEvents_spec e).bind fun _ => smfRunState_spec.bind fun r => ?_
  by_cases hr : r ≠ 0
  · intro s hs
    exact absurd hs.1 hr
  · rw [if_neg hr]
    refine (Triple.pure (Phase.stable false 0 0) fun s hs => ⟨rfl, hs⟩).conseq ?_ fun _ _ hs => hs
    exact fun s hs => hs.2

theorem mainLoop_spec : At (Phase false 0 0) mainLoop fun _ _ => False := by
  refine Triple.repeatM (fun _ => Phase false 0 0) (fun _ => Phase.stable _ _ _)
    (fun _ _ _ _ hs => hs) (fun _ _ hs => hs) fun _ => ?_
  refine iteration_spec.conseq (fun _ hs => hs) ?_
  rintro x s ⟨rfl, hs⟩
  exact hs

/-! ## The set-up -/

/-- Before the machine has a state; `ready` once the event object is initialised. -/
structure Setup (ready : Bool) (s : State) : Prop extends Inv s where
  waits : s.waiting = false
  noWake : s.wakes = []
  noTransition : s.transitions = 0
  noIteration : s.iterations = 0
  isReady : s.initAt.isSome = ready
  bound : ∀ n, s.initAt = some n → n ≤ s.clearedAt

theorem Setup.stable (ready : Bool) : device.Stable (Setup ready) := by
  rintro s t ⟨_, rfl⟩ hs
  exact { hs with toInv := hs.press }

theorem Setup.settled {ready : Bool} {s : State} (h : Setup ready s) : Settled s :=
  { h.toInv with moved := by simp [h.noTransition, h.noWake] }

theorem boot_inv : Inv boot := by
  constructor <;> simp [boot, horizon]

theorem boot_setup : Setup false boot := ⟨boot_inv, rfl, rfl, rfl, rfl, rfl, by simp [boot]⟩

/-- A call of the set-up that leaves the record alone. -/
theorem setup_lift {ρ : Type} {c : Call ρ} (hW : ∀ s, Settled s → watch.atCall c s)
    (hc : ∀ s r t, device.answer c s r t → t = { s with callbackAdded := t.callbackAdded }) :
    At (Setup false) (liftM c) fun _ => Setup false := by
  refine Triple.lift (Setup.stable _) (fun _ => Setup.stable _) (fun s hs => hW s hs.settled) ?_
  intro s r t hs ha
  rw [hc s r t ha]
  exact { hs with toInv := { hs.toInv with } }

theorem kEventInit_spec : At (Setup false) (liftM Call.kEventInit) fun _ => Setup true := by
  refine Triple.lift (Setup.stable _) (fun _ => Setup.stable _) (fun s hs _ => hs.settled) ?_
  rintro s _ t hs rfl
  have hinv := hs.toInv.clear
    (t := { s with smfEvent := 0, clearedAt := s.presses, initAt := some s.presses })
    hs.waits rfl rfl rfl rfl rfl (by simp [hs.noWake])
  exact { hs with
    toInv := hinv
    isReady := rfl
    bound := fun n hn => (Option.some.inj hn).symm.le }

theorem smfSetInitial_spec : At (Setup true) (smfSetInitial .S0) fun _ => Phase false 0 0 := by
  have hfirst : At (Setup true) (liftM (Call.smfSetFirst .S0)) fun _ => Phase false 0 0 := by
    refine Triple.lift (Setup.stable _) (fun _ => Phase.stable _ _ _) (fun s hs _ => hs.settled) ?_
    rintro s _ t hs rfl
    obtain ⟨n, hn⟩ := Option.isSome_iff_exists.mp hs.isReady
    exact { hs with
      toInv := { hs.toInv with }
      moved := by simp [hs.noWake, hs.noTransition]
      done := by simp [hs.noWake, hs.noIteration]
      state := by simp [hs.noTransition, parity]
      terminate := rfl
      started := ⟨n, hn, hs.bound n hn⟩ }
  exact hfirst.bind fun _ => entry_spec .S0 0

theorem main_spec : At (Setup false) main fun _ s => s.initAt = none := by
  have hstop : ∀ z : ℤ, At (Setup false) (pure z) fun _ s => s.initAt = none := fun z =>
    Triple.pure (Setup.stable _) fun s hs => by simpa using hs.isReady
  have hready : At (Setup false) (liftM Call.gpioIsReadyDt) fun _ => Setup false :=
    setup_lift (fun _ h _ => h) fun s _ t ht => by cases ht; rfl
  have hconfigure : At (Setup false) (liftM Call.gpioPinConfigureDt) fun _ => Setup false :=
    setup_lift (fun _ h _ => h) fun s _ t ht => by cases ht; rfl
  have hinterrupt : At (Setup false) (liftM Call.gpioPinInterruptConfigureDt) fun _ => Setup false :=
    setup_lift (fun _ h _ => h) fun s _ t ht => by cases ht; rfl
  have hcallback : At (Setup false) (liftM Call.gpioAddCallback) fun _ => Setup false :=
    setup_lift (fun _ h _ => h) fun s _ t ht => by cases ht; rfl
  refine hready.bind fun ok => ?_
  split
  case isFalse => exact hstop 0
  refine hconfigure.bind fun ret => ?_
  split
  case isTrue => exact hstop 0
  refine hinterrupt.bind fun ret => ?_
  split
  case isTrue => exact hstop 0
  refine hcallback.bind fun _ => kEventInit_spec.bind fun _ => smfSetInitial_spec.bind fun _ => ?_
  exact mainLoop_spec.conseq (fun _ hs => hs) fun _ _ hs => hs.elim

/-! ## Every press and every wake-up -/

/-- What the run has made of the presses since `k_event_init`, of which there were `n` before. -/
structure Accounted (n : ℕ) (t : State) : Prop where
  /-- No more transitions than presses. -/
  bounded : t.transitions ≤ t.presses - n
  /-- A wake-up has moved the machine, or is about to. -/
  wakes : t.transitions ≤ t.wakes.length ∧ t.wakes.length ≤ t.transitions + 1
  /-- Each wake-up saw a press posted since `k_event_init`. -/
  seen : ∀ w ∈ t.wakes, n ≤ w.first ∧ w.first < w.last ∧ w.last ≤ t.presses
  /-- It was posted after those that earlier wake-ups saw. -/
  fresh : t.wakes.Pairwise fun v w => v.last ≤ w.first

/-- Disjoint runs of presses, none empty, are at most as many as the presses. -/
theorem length_le_of_fresh {n m : ℕ} : ∀ {l : List Wake},
    (∀ w ∈ l, n ≤ w.first ∧ w.first < w.last ∧ w.last ≤ m) →
    (l.Pairwise fun v w => v.last ≤ w.first) → l.length ≤ m - n
  | [], _, _ => Nat.zero_le _
  | v :: l, hl, hp => by
    obtain ⟨hv, hp⟩ := List.pairwise_cons.mp hp
    have hhead := hl v (List.mem_cons_self ..)
    have ih := length_le_of_fresh (n := v.last) (m := m) (l := l)
      (fun w hw => ⟨hv w hw, (hl w (List.mem_cons_of_mem _ hw)).2⟩) hp
    simp only [List.length_cons]
    omega

theorem horizon_le {s : State} (h : Inv s) : horizon s ≤ s.presses := by
  unfold horizon
  split
  · exact h.cleared
  · exact Nat.le_refl _

theorem Settled.accounted {n : ℕ} {t : State} (h : Settled t) (hn : t.initAt = some n) :
    Accounted n t := by
  have hseen : ∀ w ∈ t.wakes, n ≤ w.first ∧ w.first < w.last ∧ w.last ≤ t.presses := fun w hw =>
    have hs := h.seen w hw
    ⟨h.init w hw n hn, hs.1, hs.2.trans (horizon_le h.toInv)⟩
  have hlen := length_le_of_fresh hseen h.fresh
  exact ⟨h.moved.1.trans hlen, h.moved, hseen, h.fresh⟩

theorem settled_of_steps {q : Prog Call ℤ} {t : State} (h : Steps device (main, boot) (q, t))
    (hi : t.initAt ≠ none) : (∀ a, q ≠ .ret a) ∧ Settled t := by
  have hm := main_spec boot boot_setup q t h
  cases q with
  | ret a => exact absurd hm hi
  | loop b body k => exact ⟨fun _ => by simp, Phase.settled hm (by omega)⟩
  | call c k =>
    refine ⟨fun _ => by simp, ?_⟩
    cases c
    case kEventBlock => exact Phase.settled hm (by omega)
    all_goals exact hm hi

/-- **No press counts twice and no transition is spurious.** -/
theorem transitions_accounted {q : Prog Call ℤ} {t : State} {n : ℕ}
    (h : Steps device (main, boot) (q, t)) (hn : t.initAt = some n) :
    Accounted n t ∧ (∀ a, q ≠ .ret a) ∧
      (q.AtLoop → t.wakes.length = t.iterations ∧ t.transitions = t.iterations ∧
        (t.current = some .S0 ↔ t.iterations % 2 = 0) ∧
        (t.current = some .S1 ↔ t.iterations % 2 = 1)) := by
  obtain ⟨hret, hs⟩ := settled_of_steps h (by simp [hn])
  refine ⟨hs.accounted hn, hret, fun hq => ?_⟩
  have hp : Phase false 0 0 t := Safe.atLoop (main_spec boot boot_setup) h hq
  have htrans : t.transitions = t.iterations := by
    have := hp.moved
    have := hp.done
    omega
  refine ⟨hp.done, htrans, ?_, ?_⟩
  · rw [hp.state, htrans, parity]
    split <;> simp_all
  · rw [hp.state, htrans, parity]
    split <;> simp_all

/-- A press in each wait. -/
def pressInWait {ρ : Type} (c : Call ρ) (_ : State) : Bool :=
  match c with
  | .kEventBlock _ => true
  | _ => false

/-- After one round the machine is in `S1`. -/
theorem transitions_accounted_round :
    ∃ q t, Steps device (main, boot) (q, t) ∧ q.AtLoop ∧ t.iterations = 1 ∧
      t.current = some .S1 ∧ Accounted 0 t := by
  have hrun := replay_steps (script_follows pressInWait) 16 (main, boot)
  have h := transitions_accounted hrun (n := 0) rfl
  exact ⟨_, _, hrun, trivial, rfl, rfl, h.1⟩

/-- `main` is blocked in `k_event_wait` with no event set. -/
def Blocked (q : Prog Call ℤ) (t : State) : Prop :=
  q.Calls (.kEventBlock EVENT_BTN_PRESS) ∧ t.smfEvent &&& EVENT_BTN_PRESS = 0

/-- The press was seen by a wake-up that has moved the machine. -/
def Served (t : State) (press : ℕ) : Prop :=
  ∃ k w, t.wakes[k]? = some w ∧ w.Saw press ∧ k < t.transitions

/-- **No press is lost exactly when none is posted outside `k_event_wait`.** -/
theorem presses_served_iff {q : Prog Call ℤ} {t : State}
    (h : Steps device (main, boot) (q, t)) (hb : Blocked q t) :
    (∀ i < t.presses, Served t i) ↔ t.outside = 0 := by
  have hp : Phase true 0 0 t := Safe.atCall (main_spec boot boot_setup) h hb.1
  have hclear : t.clearedAt = t.presses := by
    by_contra hne
    have hlt : t.clearedAt < t.presses := lt_of_le_of_ne hp.cleared hne
    have hbit := hb.2
    rw [hp.bits, if_pos hlt] at hbit
    exact absurd hbit (by decide)
  rw [hp.outside, horizon_waiting hp.waits, hclear]
  have hserved : ∀ i, Served t i ↔ ∃ w ∈ t.wakes, w.Saw i := by
    intro i
    constructor
    · rintro ⟨k, w, hk, hsaw, -⟩
      exact ⟨w, List.mem_of_getElem? hk, hsaw⟩
    · rintro ⟨w, hw, hsaw⟩
      obtain ⟨k, hk⟩ := List.mem_iff_getElem?.mp hw
      obtain ⟨hlt, -⟩ := List.getElem?_eq_some_iff.mp hk
      exact ⟨k, w, hk, hsaw, by rw [hp.moved] at hlt; exact hlt⟩
  simp only [hserved]

/-- Blocked in the second wait, with the press of the first one served. -/
theorem presses_served_second_wait :
    ∃ q t, Steps device (main, boot) (q, t) ∧ Blocked q t ∧ t.presses = 1 ∧
      ∀ i < t.presses, Served t i := by
  have hrun := replay_steps (script_follows pressInWait) 18 (main, boot)
  have hb : Blocked (replay (script pressInWait) 18 (main, boot)).1
      (replay (script pressInWait) 18 (main, boot)).2 := ⟨⟨_, rfl⟩, rfl⟩
  exact ⟨_, _, hrun, hb, rfl, (presses_served_iff hrun hb).mpr rfl⟩

/-- One press, after the event object is initialised and before the first wait. -/
def pressBeforeWait {ρ : Type} (c : Call ρ) (s : State) : Bool :=
  match c with
  | .kEventReset => s.presses == 0
  | _ => false

/-- The reset of the first wait throws that press away. -/
theorem press_lost :
    ¬ ∀ (q : Prog Call ℤ) (t : State), Steps device (main, boot) (q, t) → Blocked q t →
      ∀ i < t.presses, Served t i := by
  intro h
  have hrun := replay_steps (script_follows pressBeforeWait) 20 (main, boot)
  have hserved := h _ _ hrun ⟨⟨_, rfl⟩, rfl⟩ 0 (by decide)
  obtain ⟨k, w, hk, -⟩ := hserved
  exact absurd (List.mem_of_getElem? hk) List.not_mem_nil

end NrfProjects.StateDemo
