import Mathlib.Tactic.SplitIfs
import NrfProjects.CdcAcm.UsbNext

/-! # The handshake between `main` and the message callback

The handler is installed only once the host has set DTR, and DTR is not missed, whichever of the
two threads comes first. -/

namespace NrfProjects.CdcAcm.UsbNext
set_option autoImplicit false
open Interaction

/-! ## What the threads leave to each other -/

variable {s t : Stack}

/-- The semaphore is given only after DTR was found set, and its count is a give not taken yet. -/
structure Inv (s : Stack) : Prop where
  given : 0 < s.dtrSem → s.given = true
  dtr : s.given = true → s.dtr = true

/-- No give has been taken yet. -/
def Pending (s : Stack) : Prop := s.given = true → s.dtrSem = 1

/-- What a call of the thread `i` leaves as it is. -/
structure Promise (i : Party) (s t : Stack) : Prop where
  inv : Inv t
  canDetectVbus : t.canDetectVbus = s.canDetectVbus
  given : s.given = true → t.given = true
  pending : i ≠ .main → Pending s → Pending t
  started : i ≠ .main → s.canDetectVbus = false → t.enabled = s.enabled
  callback : i ≠ .usbd → t.dtr = s.dtr ∧ t.given = s.given ∧ t.vbus = s.vbus
  switched : i ≠ .usbd → s.canDetectVbus = true → t.enabled = s.enabled ∧ t.failed = s.failed

abbrev beside (i : Party) : Device Call Stack := stack.beside (others Promise i)

theorem stable_beside {i : Party} {P : Stack → Prop}
    (h : ∀ j s t, j ≠ i → Promise j s t → P s → P t) : (beside i).Stable P := by
  rw [Device.stable_beside]
  constructor
  · intro s t hm
    exact hm.elim
  · intro s t hr hs
    obtain ⟨j, hj, hpromise⟩ := hr
    exact h j s t hj hpromise hs

/-- Device support is on exactly if the last message about the voltage was that it is there. -/
def FollowsVbus (s : Stack) : Prop :=
  s.canDetectVbus = true → s.failed = false → s.enabled = s.vbus

/-- The thread of the USB stack waits for a message. -/
structure Listening (s : Stack) : Prop extends Inv s where
  answered : s.dtr = true → s.given = true
  follows : FollowsVbus s

def allowed : Party → {ρ : Type} → Call ρ → Stack → Prop
  | _, _, .logErr _, s => Inv s
  | _, _, .usbdCanDetectVbus, s => Inv s
  | .main, _, .deviceIsReady, s => Inv s
  | .main, _, .usbdInitDevice, s => Inv s
  | .main, _, .usbdEnable, s => Inv s ∧ s.canDetectVbus = false
  | .main, _, .ringBufInit, s => Inv s
  | .main, _, .kSemTake, s => Inv s ∧ Pending s ∧ (s.canDetectVbus = false → s.enabled = true)
  | .main, _, .lineCtrlSetDcd, s => Inv s
  | .main, _, .lineCtrlSetDsr, s => Inv s
  | .main, _, .irqCallbackSet, s => Inv s ∧ s.given = true
  | .main, _, .irqRxEnable, s => Inv s
  | .usbd, _, .usbdEnable, s => Inv s ∧ s.canDetectVbus = true
  | .usbd, _, .usbdDisable, s => Inv s ∧ s.canDetectVbus = true
  | .usbd, _, .lineCtrlGetDtr, s => Inv s
  | .usbd, _, .lineCtrlGetBaudRate, s => Inv s
  | .usbd, _, .kSemGive, s => Inv s ∧ s.dtr = true
  | .usbd, _, .nextMessage, s => Listening s
  | _, _, _, _ => False

def watch (i : Party) : Watch Call Stack := ⟨Inv, allowed i⟩

/-! ## What the calls do -/

theorem Promise.refl (i : Party) (h : Inv s) : Promise i s s where
  inv := h
  canDetectVbus := rfl
  given := id
  pending _ := id
  started _ _ := rfl
  callback _ := ⟨rfl, rfl, rfl⟩
  switched _ _ := ⟨rfl, rfl⟩

theorem Switched.promise {i : Party} {b : Bool} {err : ℤ} (h : Switched b s err t) (hs : Inv s)
    (hi : s.canDetectVbus = true ↔ i = .usbd) : Promise i s t := by
  have hmain : i ≠ .main → s.canDetectVbus = true := by
    intro hne
    cases i
    · exact absurd rfl hne
    · exact hi.mpr rfl
  rcases h with ⟨-, rfl⟩ | ⟨-, rfl⟩
  · refine ⟨⟨hs.given, hs.dtr⟩, rfl, id, fun _ => id, fun hne hno => ?_, fun _ => ⟨rfl, rfl, rfl⟩,
      fun hne hyes => absurd (hi.mp hyes) hne⟩
    rw [hmain hne] at hno
    cases hno
  · exact ⟨⟨hs.given, hs.dtr⟩, rfl, id, fun _ => id, fun _ _ => rfl, fun _ => ⟨rfl, rfl, rfl⟩,
      fun hne hyes => absurd (hi.mp hyes) hne⟩

theorem allowed.promise {i : Party} {ρ : Type} {c : Call ρ} (h : allowed i c s) (r : ρ)
    (ha : stack.answer c s r t) : Promise i s t := by
  cases c with
  | logErr e =>
    obtain rfl : t = s := ha
    cases i <;> exact .refl _ h
  | usbdCanDetectVbus =>
    obtain rfl : t = s := ha.2
    cases i <;> exact .refl _ h
  | deviceIsReady | ringBufInit | lineCtrlSetDcd | lineCtrlSetDsr =>
    cases i with
    | main =>
      obtain rfl : t = s := ha
      exact .refl _ h
    | usbd => exact h.elim
  | usbdInitDevice =>
    cases i with
    | main =>
      obtain rfl : t = { s with initialised := s.initialised || r } := ha
      exact ⟨⟨h.given, h.dtr⟩, rfl, id, fun _ => id, fun _ _ => rfl, fun _ => ⟨rfl, rfl, rfl⟩,
        fun _ _ => ⟨rfl, rfl⟩⟩
    | usbd => exact h.elim
  | usbdEnable =>
    cases i with
    | main => exact Switched.promise ha h.1 (by simp [h.2])
    | usbd => exact Switched.promise ha h.1 (by simp [h.2])
  | usbdDisable =>
    cases i with
    | main => exact h.elim
    | usbd => exact Switched.promise ha h.1 (by simp [h.2])
  | kSemTake =>
    cases i with
    | main =>
      obtain ⟨hpos, rfl⟩ := ha
      exact ⟨⟨fun _ => h.1.given hpos, h.1.dtr⟩, rfl, id, fun hne => absurd rfl hne,
        fun _ _ => rfl, fun _ => ⟨rfl, rfl, rfl⟩, fun _ _ => ⟨rfl, rfl⟩⟩
    | usbd => exact h.elim
  | irqCallbackSet =>
    cases i with
    | main =>
      obtain rfl : t = { s with callback := true } := ha
      exact ⟨⟨h.1.given, h.1.dtr⟩, rfl, id, fun _ => id, fun _ _ => rfl,
        fun _ => ⟨rfl, rfl, rfl⟩, fun _ _ => ⟨rfl, rfl⟩⟩
    | usbd => exact h.elim
  | irqRxEnable =>
    cases i with
    | main =>
      obtain rfl : t = { s with rxIrq := true } := ha
      exact ⟨⟨h.given, h.dtr⟩, rfl, id, fun _ => id, fun _ _ => rfl,
        fun _ => ⟨rfl, rfl, rfl⟩, fun _ _ => ⟨rfl, rfl⟩⟩
    | usbd => exact h.elim
  | lineCtrlGetBaudRate =>
    cases i with
    | main => exact h.elim
    | usbd =>
      obtain rfl : t = s := ha
      exact .refl _ h
  | lineCtrlGetDtr =>
    cases i with
    | main => exact h.elim
    | usbd =>
      obtain rfl : t = { s with dtr := s.dtr || r ≠ 0 } := ha
      exact ⟨⟨h.given, fun hg => by simp [h.dtr hg]⟩, rfl, id, fun _ => id, fun _ _ => rfl,
        fun hne => absurd rfl hne, fun hne => absurd rfl hne⟩
  | kSemGive =>
    cases i with
    | main => exact h.elim
    | usbd =>
      obtain rfl : t = { s with dtrSem := min (s.dtrSem + 1) 1, given := true } := ha
      exact ⟨⟨fun _ => rfl, fun _ => h.2⟩, rfl, fun _ => rfl,
        fun _ _ _ => Nat.min_eq_right (Nat.succ_pos _), fun _ _ => rfl,
        fun hne => absurd rfl hne, fun hne => absurd rfl hne⟩
  | nextMessage =>
    cases i with
    | main => exact h.elim
    | usbd =>
      obtain ⟨-, rfl⟩ := ha
      exact ⟨⟨h.given, h.dtr⟩, rfl, id, fun _ => id, fun _ _ => rfl, fun hne => absurd rfl hne,
        fun hne => absurd rfl hne⟩

/-! ## The main thread -/

/-- `main` has not taken the semaphore yet. -/
def Waiting (s : Stack) : Prop := Inv s ∧ Pending s

/-- Device support is on, if it is not the voltage that decides. -/
def Enabled (s : Stack) : Prop := Waiting s ∧ (s.canDetectVbus = false → s.enabled = true)

def Given (s : Stack) : Prop := Inv s ∧ s.given = true

theorem inv_stable (i : Party) : (beside i).Stable Inv :=
  stable_beside fun _ _ _ _ hp _ => hp.inv

theorem waiting_stable : (beside .main).Stable Waiting :=
  stable_beside fun _ _ _ hj hp hs => ⟨hp.inv, hp.pending hj hs.2⟩

theorem enabled_stable : (beside .main).Stable Enabled := by
  refine stable_beside fun j s t hj hp hs => ⟨⟨hp.inv, hp.pending hj hs.1.2⟩, fun hno => ?_⟩
  rw [hp.canDetectVbus] at hno
  rw [hp.started hj hno]
  exact hs.2 hno

theorem given_stable : (beside .main).Stable Given :=
  stable_beside fun _ _ _ _ hp hs => ⟨hp.inv, hp.given hs.2⟩

theorem logErr_triple {i : Party} {P : Stack → Prop} (e : LogErr) (hP : (beside i).Stable P)
    (hinv : ∀ s, P s → Inv s) :
    Triple (beside i) (watch i) P (liftM (Call.logErr e)) fun _ => P :=
  Triple.unchanged hP (fun s hs => by cases i <;> exact hinv s hs) fun _ _ _ ha => ha

theorem waiting_detects_stable (b : Bool) :
    (beside .main).Stable fun s => Waiting s ∧ s.canDetectVbus = b :=
  stable_beside fun _ _ _ hj hp hs =>
    ⟨⟨hp.inv, hp.pending hj hs.1.2⟩, hp.canDetectVbus.trans hs.2⟩

/-- When device support was switched on, or need not be, it is enabled. -/
def Enables (err : ℤ) (s : Stack) : Prop := Waiting s ∧ (err = 0 → Enabled s)

theorem enables_stable (err : ℤ) : (beside .main).Stable (Enables err) := by
  intro s t hm hs
  exact ⟨waiting_stable s t hm hs.1, fun herr => enabled_stable s t hm (hs.2 herr)⟩

theorem usbdEnable_triple :
    Triple (beside .main) (watch .main) (fun s => Waiting s ∧ s.canDetectVbus = false)
      (liftM Call.usbdEnable) Enables := by
  refine Triple.lift (waiting_detects_stable _) enables_stable (fun s hs => ⟨hs.1.1, hs.2⟩) ?_
  intro s err t hs ha
  rcases ha with ⟨-, rfl⟩ | ⟨herr, rfl⟩
  · have hw : Waiting { s with enabled := true } := ⟨⟨hs.1.1.given, hs.1.1.dtr⟩, hs.1.2⟩
    exact ⟨hw, fun _ => ⟨hw, fun _ => rfl⟩⟩
  · exact ⟨⟨⟨hs.1.1.given, hs.1.1.dtr⟩, hs.1.2⟩, fun h0 => absurd h0 herr⟩

theorem enableUsbDeviceNext_triple :
    Triple (beside .main) (watch .main) Waiting enableUsbDeviceNext Enables := by
  have hinit : Triple (beside .main) (watch .main) Waiting (liftM Call.usbdInitDevice) fun _ =>
      Waiting := by
    refine Triple.lift waiting_stable (fun _ => waiting_stable) (fun s hs => hs.1) ?_
    intro s r t hs ha
    obtain rfl : t = { s with initialised := s.initialised || r } := ha
    exact ⟨⟨hs.1.given, hs.1.dtr⟩, hs.2⟩
  have hdetect : Triple (beside .main) (watch .main) Waiting (liftM Call.usbdCanDetectVbus)
      fun b s => Waiting s ∧ s.canDetectVbus = b := by
    refine Triple.lift waiting_stable waiting_detects_stable (fun s hs => hs.1) ?_
    intro s r t hs ha
    obtain ⟨rfl, rfl⟩ := ha
    exact ⟨hs, rfl⟩
  unfold enableUsbDeviceNext
  apply hinit.bind
  intro created
  cases created with
  | false =>
    apply (logErr_triple _ waiting_stable fun _ h => h.1).bind
    intro _
    refine Triple.pure waiting_stable fun s hs => ⟨hs, fun h0 => ?_⟩
    exact absurd h0 (by decide)
  | true =>
    apply hdetect.bind
    intro detects
    cases detects with
    | true =>
      refine Triple.pure (waiting_detects_stable _) fun s hs => ⟨hs.1, fun _ => ⟨hs.1, ?_⟩⟩
      intro hno
      rw [hs.2] at hno
      cases hno
    | false =>
      apply usbdEnable_triple.bind
      intro err
      by_cases herr : err = 0
      · simp only [herr, ne_eq, not_true_eq_false, if_false]
        exact Triple.pure (enables_stable _) fun _ h => h
      · simp only [herr, ne_eq, not_false_eq_true, if_true]
        apply (logErr_triple _ (enables_stable err) fun _ h => h.1.1).bind
        intro _
        exact Triple.pure (enables_stable _) fun _ h => h

theorem startEcho_triple :
    Triple (beside .main) (watch .main) Given startEcho fun _ => Inv := by
  have hset : Triple (beside .main) (watch .main) Given (liftM Call.irqCallbackSet) fun _ =>
      Inv := by
    refine Triple.lift given_stable (fun _ => inv_stable _) (fun s hs => hs) ?_
    intro s r t hs ha
    exact (allowed.promise (i := .main) (c := .irqCallbackSet) hs r ha).inv
  have hrx : Triple (beside .main) (watch .main) Inv (liftM Call.irqRxEnable) fun _ => Inv := by
    refine Triple.lift (inv_stable _) (fun _ => inv_stable _) (fun s hs => hs) ?_
    intro s r t hs ha
    exact (allowed.promise (i := .main) (c := .irqRxEnable) hs r ha).inv
  unfold startEcho
  apply (Triple.unchanged (W := watch .main) (c := Call.lineCtrlSetDcd) given_stable (fun _ h => h.1)
    fun _ _ _ ha => ha).bind
  intro _
  apply (Triple.unchanged (W := watch .main) (c := Call.lineCtrlSetDsr) given_stable (fun _ h => h.1)
    fun _ _ _ ha => ha).bind
  intro _
  apply hset.bind
  intro _
  apply hrx.bind
  intro _
  exact Triple.pure (inv_stable _) fun _ h => h

theorem main_triple : Triple (beside .main) (watch .main) Waiting main fun _ => Inv := by
  have htake : Triple (beside .main) (watch .main) Enabled (liftM Call.kSemTake) fun _ =>
      Given := by
    refine Triple.lift enabled_stable (fun _ => given_stable) (fun s hs => ⟨hs.1.1, hs.1.2, hs.2⟩) ?_
    intro s r t hs ha
    obtain ⟨hpos, rfl⟩ := ha
    exact ⟨⟨fun _ => hs.1.1.given hpos, hs.1.1.dtr⟩, hs.1.1.given hpos⟩
  unfold main
  apply (Triple.unchanged (W := watch .main) (c := Call.deviceIsReady) waiting_stable (fun _ h => h.1)
    fun _ _ _ ha => ha).bind
  intro ready
  cases ready with
  | false =>
    apply (logErr_triple _ waiting_stable fun _ h => h.1).bind
    intro _
    exact Triple.pure waiting_stable fun _ h => h.1
  | true =>
    apply enableUsbDeviceNext_triple.bind
    intro ret
    by_cases hret : ret = 0
    · subst hret
      have hinit : Triple (beside .main) (watch .main) Enabled (liftM Call.ringBufInit) fun _ =>
          Enabled := Triple.unchanged enabled_stable (fun _ h => h.1.1) fun _ _ _ ha => ha
      refine Triple.conseq (P := Enabled) ?_ (fun s hs => hs.2 rfl) (fun _ _ h => h)
      apply hinit.bind
      intro _
      apply htake.bind
      intro _
      exact startEcho_triple
    · simp only [hret, ne_eq, not_false_eq_true, if_true]
      apply (logErr_triple _ (enables_stable ret) fun _ h => h.1.1).bind
      intro _
      exact Triple.pure (enables_stable _) fun _ h => h.1.1

/-! ## The message callback -/

/-- The callback has found DTR set and is about to give. -/
structure Owing (s : Stack) : Prop extends Inv s where
  found : s.dtr = true
  follows : FollowsVbus s

/-- A message has been handed out, and device support is as it was before. -/
structure Heard (msg : Msg) (s : Stack) : Prop extends Inv s where
  answered : s.dtr = true → s.given = true
  before : ∃ b, s.vbus = msg.vbus b ∧ (s.canDetectVbus = true → s.failed = false → s.enabled = b)

theorem Promise.followsVbus {i : Party} (h : Promise i s t) (hi : i ≠ .usbd)
    (hs : FollowsVbus s) : FollowsVbus t := by
  intro hcan hok
  rw [h.canDetectVbus] at hcan
  obtain ⟨henabled, hfailed⟩ := h.switched hi hcan
  rw [henabled, (h.callback hi).2.2]
  exact hs hcan (hfailed ▸ hok)

theorem Promise.answered {i : Party} (h : Promise i s t) (hi : i ≠ .usbd)
    (hs : s.dtr = true → s.given = true) (hdtr : t.dtr = true) : t.given = true := by
  obtain ⟨hd, hg, -⟩ := h.callback hi
  rw [hd] at hdtr
  rw [hg]
  exact hs hdtr

theorem owing_stable : (beside .usbd).Stable Owing :=
  stable_beside fun _ _ _ hj hp hs =>
    ⟨hp.inv, (hp.callback hj).1.trans hs.found, hp.followsVbus hj hs.follows⟩

theorem listening_stable : (beside .usbd).Stable Listening :=
  stable_beside fun _ _ _ hj hp hs =>
    ⟨hp.inv, hp.answered hj hs.answered, hp.followsVbus hj hs.follows⟩

theorem heard_stable (msg : Msg) : (beside .usbd).Stable (Heard msg) := by
  refine stable_beside fun j s t hj hp hs => ⟨hp.inv, hp.answered hj hs.answered, ?_⟩
  obtain ⟨b, hvbus, hbefore⟩ := hs.before
  refine ⟨b, (hp.callback hj).2.2.trans hvbus, fun hcan hok => ?_⟩
  rw [hp.canDetectVbus] at hcan
  obtain ⟨henabled, hfailed⟩ := hp.switched hj hcan
  rw [henabled]
  exact hbefore hcan (hfailed ▸ hok)

theorem heard_detects_stable (msg : Msg) (b : Bool) : (beside .usbd).Stable fun s =>
    Heard msg s ∧ s.canDetectVbus = b := by
  refine stable_beside fun j s t hj hp hs => ⟨?_, hp.canDetectVbus.trans hs.2⟩
  exact heard_stable msg s t (.inr ⟨j, hj, hp⟩) hs.1

theorem switch_triple {msg : Msg} {c : Call ℤ} {b : Bool} (e : LogErr)
    (hc : ∀ s r t, stack.answer c s r t → Switched b s r t) (hb : ∀ b', msg.vbus b' = b)
    (hallowed : ∀ s, Inv s → s.canDetectVbus = true → allowed .usbd c s) :
    Triple (beside .usbd) (watch .usbd) (fun s => Heard msg s ∧ s.canDetectVbus = true)
      (switch c e) fun _ => Listening := by
  have hswitch : Triple (beside .usbd) (watch .usbd)
      (fun s => Heard msg s ∧ s.canDetectVbus = true) (liftM c) fun _ => Listening := by
    refine Triple.lift (heard_detects_stable msg true) (fun _ => listening_stable)
      (fun s hs => hallowed s hs.1.toInv hs.2) ?_
    intro s r t hs ha
    obtain ⟨b', hvbus, -⟩ := hs.1.before
    rcases hc s r t ha with ⟨-, rfl⟩ | ⟨-, rfl⟩
    · exact ⟨⟨hs.1.given, hs.1.dtr⟩, hs.1.answered, fun _ _ => (hvbus.trans (hb b')).symm⟩
    · exact ⟨⟨hs.1.given, hs.1.dtr⟩, hs.1.answered, fun _ hok => by cases hok⟩
  unfold switch
  apply hswitch.bind
  intro err
  split_ifs
  · exact logErr_triple _ listening_stable fun _ h => h.toInv
  · exact Triple.pure listening_stable fun _ h => h

theorem onVbus_triple (msg : Msg) :
    Triple (beside .usbd) (watch .usbd) (fun s => Heard msg s ∧ s.canDetectVbus = true)
      (onVbus msg) fun _ => Listening := by
  have hkeep : (∀ b, msg.vbus b = b) → Triple (beside .usbd) (watch .usbd)
      (fun s => Heard msg s ∧ s.canDetectVbus = true) (pure ()) fun _ => Listening := by
    intro hmsg
    refine Triple.pure (heard_detects_stable msg true) fun s hs => ⟨hs.1.toInv, hs.1.answered, ?_⟩
    obtain ⟨b, hvbus, hbefore⟩ := hs.1.before
    intro hcan hok
    rw [hvbus, hmsg]
    exact hbefore hcan hok
  cases msg with
  | vbusReady =>
    exact switch_triple _ (fun _ _ _ ha => ha) (fun _ => rfl) fun _ h hcan => ⟨h, hcan⟩
  | vbusRemoved =>
    exact switch_triple _ (fun _ _ _ ha => ha) (fun _ => rfl) fun _ h hcan => ⟨h, hcan⟩
  | controlLineState => exact hkeep fun _ => rfl
  | lineCoding => exact hkeep fun _ => rfl
  | other => exact hkeep fun _ => rfl

theorem detectVbus_triple (msg : Msg) :
    Triple (beside .usbd) (watch .usbd) (Heard msg) (detectVbus msg) fun _ => Listening := by
  have hdetect : Triple (beside .usbd) (watch .usbd) (Heard msg) (liftM Call.usbdCanDetectVbus)
      fun b s => Heard msg s ∧ s.canDetectVbus = b := by
    refine Triple.lift (heard_stable msg) (heard_detects_stable msg) (fun s hs => hs.toInv) ?_
    intro s r t hs ha
    obtain ⟨rfl, rfl⟩ := ha
    exact ⟨hs, rfl⟩
  unfold detectVbus
  apply hdetect.bind
  intro detects
  cases detects with
  | false =>
    refine Triple.pure (heard_detects_stable msg false) fun s hs => ⟨hs.1.toInv, hs.1.answered, ?_⟩
    intro hcan
    rw [hs.2] at hcan
    cases hcan
  | true => exact onVbus_triple msg

theorem onControlLineState_triple :
    Triple (beside .usbd) (watch .usbd) Listening onControlLineState fun _ => Listening := by
  have hget : Triple (beside .usbd) (watch .usbd) Listening (liftM Call.lineCtrlGetDtr)
      fun dtr s => if dtr = 0 then Listening s else Owing s := by
    refine Triple.lift listening_stable (fun dtr => ?_) (fun s hs => hs.toInv) ?_
    · by_cases hdtr : dtr = 0
      · simpa only [if_pos hdtr] using listening_stable
      · simpa only [if_neg hdtr] using owing_stable
    · intro s dtr t hs ha
      have hp : Promise .usbd s t :=
        allowed.promise (i := .usbd) (c := .lineCtrlGetDtr) hs.toInv dtr ha
      obtain rfl : t = { s with dtr := s.dtr || dtr ≠ 0 } := ha
      by_cases hdtr : dtr = 0
      · subst hdtr
        refine ⟨hp.inv, ?_, hs.follows⟩
        simpa using hs.answered
      · rw [if_neg hdtr]
        exact ⟨hp.inv, by simp [hdtr], hs.follows⟩
  have hgive : Triple (beside .usbd) (watch .usbd) Owing (liftM Call.kSemGive) fun _ =>
      Listening := by
    refine Triple.lift owing_stable (fun _ => listening_stable) (fun s hs => ⟨hs.toInv, hs.found⟩) ?_
    intro s r t hs ha
    have hp : Promise .usbd s t :=
      allowed.promise (i := .usbd) (c := .kSemGive) ⟨hs.toInv, hs.found⟩ r ha
    obtain rfl : t = { s with dtrSem := min (s.dtrSem + 1) 1, given := true } := ha
    exact ⟨hp.inv, fun _ => rfl, hs.follows⟩
  unfold onControlLineState
  apply hget.bind
  intro dtr
  by_cases hdtr : dtr = 0
  · simp only [hdtr, ne_eq, not_true_eq_false, if_true, if_false]
    exact Triple.pure listening_stable fun _ h => h
  · simp only [hdtr, ne_eq, not_false_eq_true, if_true, if_false]
    exact hgive

theorem sampleMsgCb_triple (msg : Msg) :
    Triple (beside .usbd) (watch .usbd) (Heard msg) (sampleMsgCb msg) fun _ => Listening := by
  have hbaud : Triple (beside .usbd) (watch .usbd) Listening printBaudrate fun _ => Listening := by
    unfold printBaudrate
    apply (Triple.unchanged (W := watch .usbd) (c := Call.lineCtrlGetBaudRate) listening_stable
      (fun _ h => h.toInv) fun _ _ _ ha => ha).bind
    intro _
    exact Triple.pure listening_stable fun _ h => h
  have hnone : Triple (beside .usbd) (watch .usbd) Listening (pure ()) fun _ => Listening :=
    Triple.pure listening_stable fun _ h => h
  unfold sampleMsgCb
  apply (detectVbus_triple msg).bind
  intro _
  cases msg with
  | vbusReady => exact hnone
  | vbusRemoved => exact hnone
  | controlLineState => exact onControlLineState_triple
  | lineCoding => exact hbaud
  | other => exact hnone

theorem usbd_triple : Triple (beside .usbd) (watch .usbd) Listening usbd fun _ _ => False := by
  have hnext : Triple (beside .usbd) (watch .usbd) Listening (liftM Call.nextMessage) Heard := by
    refine Triple.lift listening_stable heard_stable (fun s hs => hs) ?_
    intro s msg t hs ha
    obtain ⟨-, rfl⟩ := ha
    exact ⟨⟨hs.given, hs.dtr⟩, hs.answered, s.vbus, rfl, hs.follows⟩
  unfold usbd
  apply Triple.repeatM (fun _ => Listening) (b := ()) (fun _ => listening_stable)
    (fun _ _ _ _ h => h) fun _ _ h => h.toInv
  intro _
  apply hnext.bind
  intro msg
  apply (sampleMsgCb_triple msg).bind
  intro _
  exact Triple.pure listening_stable fun _ h => h

/-! ## Both threads -/

theorem program_team (b : Bool) :
    Team stack watch Promise (fun _ _ => Inv) program (boot b) where
  safe i := by
    cases i with
    | main => exact main_triple (boot b) ⟨⟨nofun, nofun⟩, nofun⟩
    | usbd =>
      have hboot : Listening (boot b) := ⟨⟨nofun, nofun⟩, nofun, fun _ _ => rfl⟩
      exact (usbd_triple (boot b) hboot).imp fun _ _ h => h.elim
  promise i _ _ _ h r _ ha := h.promise r ha

/-- **DTR is neither missed nor assumed.** While `main` is blocked on the semaphore and the USB
thread waits, no message has found DTR set; when `main` installs the handler, one has. -/
theorem dtr_handshake {b : Bool} {p : Party → Prog Call ℤ}
    (h : TeamSteps stack (program, boot b) (p, t)) :
    ((p .main).Calls .kSemTake → (p .usbd).Calls .nextMessage → t.dtrSem = 0 → t.dtr = false) ∧
      ((p .main).Calls .irqCallbackSet → t.dtr = true) := by
  constructor
  · intro hmain husbd hsem
    have htake : Inv t ∧ Pending t ∧ _ := (program_team b).atCall h hmain
    have hlisten : Listening t := (program_team b).atCall h husbd
    cases hdtr : t.dtr with
    | false => rfl
    | true =>
      have hone := htake.2.1 (hlisten.answered hdtr)
      omega
  · intro hmain
    have hset : Inv t ∧ t.given = true := (program_team b).atCall h hmain
    exact hset.1.dtr hset.2

/-- `main` blocks, the callback gives, and `main` goes on. -/
theorem dtr_handshake_run : (rota (reply .controlLineState) [(.main, 5), (.usbd, 5), (.main, 3)]
    (program, boot false)).2.dtr = true :=
  (dtr_handshake (rota_steps (reply_follows _) _ _)).2 ⟨_, rfl⟩

/-- **Device support follows the bus voltage** where the device can detect it and no switch has
failed; where it cannot, support is on before `main` waits, whatever messages come. -/
theorem device_support {b : Bool} {p : Party → Prog Call ℤ}
    (h : TeamSteps stack (program, boot b) (p, t)) :
    (t.canDetectVbus = true → t.failed = false → (p .usbd).Calls .nextMessage →
        t.enabled = t.vbus) ∧
      (t.canDetectVbus = false → (p .main).Calls .kSemTake → t.enabled = true) := by
  constructor
  · intro hcan hok husbd
    have hlisten : Listening t := (program_team b).atCall h husbd
    exact hlisten.follows hcan hok
  · intro hno hmain
    have htake : Inv t ∧ Pending t ∧ _ := (program_team b).atCall h hmain
    exact htake.2.2 hno

/-- The voltage comes while `main` is blocked. -/
theorem device_support_run :
    (rota (reply .vbusReady) [(.main, 5), (.usbd, 5)] (program, boot true)).2.enabled =
      (rota (reply .vbusReady) [(.main, 5), (.usbd, 5)] (program, boot true)).2.vbus :=
  (device_support (rota_steps (reply_follows _) _ _)).1 rfl rfl ⟨_, rfl⟩

end NrfProjects.CdcAcm.UsbNext
