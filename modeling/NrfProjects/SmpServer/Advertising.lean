import Mathlib.Tactic.SplitIfs
import NrfProjects.SmpServer.Main

/-! # Whether the server can be reached

The server advertises again only after a callback has submitted the work item, so it stays
reachable only if no event that asks for advertising is lost between the three threads. -/

namespace NrfProjects.SmpServer
set_option autoImplicit false
open Interaction

variable {maxConn : ℕ} {s t u : Stack maxConn}

/-- A connection object is in use or just released, or the work item is going to run, or the last
start failed. -/
def Served (s : Stack maxConn) : Prop :=
  (∃ i, s.slots i ≠ .free) ∨ 0 < s.recycles ∨ s.queued = true ∨ s.starting = true ∨
    s.owed = true ∨ s.failed = true

/-- There is nothing for the host and the work queue to do. -/
structure Idle (s : Stack maxConn) : Prop where
  queued : s.queued = false
  starting : s.starting = false
  slots : ∀ i, s.slots i = .free
  recycles : s.recycles = 0

/-- Holds between any two calls of any threads. -/
structure Inv (s : Stack maxConn) : Prop where
  served : s.bt = .up → Served s
  initialised : s.bt ≠ .off → s.initialised = true
  idle : s.bt = .off → Idle s

theorem inv_boot : Inv (boot : Stack maxConn) where
  served h := by cases h
  initialised h := absurd rfl h
  idle _ := ⟨rfl, rfl, fun _ => rfl, rfl⟩

/-! ## What the threads leave to each other -/

/-- What a call of the thread `i` leaves as it is: only the host delivers and submits, only the
work queue takes an item, and only `main` starts Bluetooth. -/
structure Promise (i : Party) (s t : Stack maxConn) : Prop where
  inv : Inv t
  on : s.bt ≠ .off → t.bt ≠ .off
  owed : i ≠ .host → t.owed = s.owed
  starting : i ≠ .workqueue → t.starting = s.starting
  off : i ≠ .main → s.bt = .off → t.bt = .off
  initialised : i ≠ .main → t.initialised = s.initialised

theorem Promise.refl (i : Party) (h : Inv s) : Promise i s s where
  inv := h
  on := id
  owed _ := rfl
  starting _ := rfl
  off _ := id
  initialised _ := rfl

theorem Served.of_slot {i : Fin maxConn} (h : s.slots i ≠ .free) : Served s := .inl ⟨i, h⟩

theorem move_slot (s : Stack maxConn) (i : Fin maxConn) (slot : Slot) :
    (s.move i slot).slots i = slot :=
  Function.update_self ..

theorem Moves.promise (h : Moves s t) (hs : Inv s) (i : Party) : Promise i s t := by
  have hon : s.bt ≠ .off := by
    intro hoff
    have hfree := (hs.idle hoff).slots
    cases h with
    | established h => simp [hfree] at h
    | refused h => simp [hfree] at h
    | released h => simp [hfree] at h
  have hserved : Served t := by
    cases h with
    | @established j h => exact .of_slot (i := j) (by rw [move_slot]; decide)
    | @refused j h => exact .of_slot (i := j) (by rw [move_slot]; decide)
    | released h => exact .inr (.inl (Nat.succ_pos _))
  cases h with
  | _ =>
    exact ⟨⟨fun _ => hserved, hs.initialised, fun hoff => absurd hoff hon⟩, id, fun _ => rfl,
      fun _ => rfl, fun _ => id, fun _ => rfl⟩

/-- The stack beside which the thread `i` runs. -/
abbrev beside (maxConn : ℕ) (i : Party) : Device Call (Stack maxConn) :=
  (stack maxConn).beside (others Promise i)

theorem stable_beside {i : Party} {P : Stack maxConn → Prop} (hinv : ∀ s, P s → Inv s)
    (h : ∀ j s t, j ≠ i → Promise j s t → P s → P t) : (beside maxConn i).Stable P := by
  rw [Device.stable_beside]
  constructor
  · intro s t hm hs
    obtain ⟨j, hj⟩ : ∃ j, j ≠ i := by
      cases i
      · exact ⟨.host, by decide⟩
      · exact ⟨.main, by decide⟩
      · exact ⟨.main, by decide⟩
    exact h j s t hj (Moves.promise hm (hinv s hs) j) hs
  · intro s t hr hs
    obtain ⟨j, hj, hpromise⟩ := hr
    exact h j s t hj hpromise hs

theorem inv_stable (i : Party) : (beside maxConn i).Stable Inv :=
  stable_beside (fun _ h => h) fun _ _ _ _ hp _ => hp.inv

/-! ## The calls each thread may make -/

def allowed : Party → {ρ : Type} → Call ρ → Stack maxConn → Prop
  | _, _, .log _, s => Inv s
  | .main, _, .statsInitAndReg, s => Inv s
  | .main, _, .fsMount, s => Inv s
  | .main, _, .usbEnable, s => Inv s
  | .main, _, .kSleep _, s => Inv s
  | .main, _, .statsIncTicks, s => Inv s
  | .main, _, .kWorkInit, s => Inv s ∧ s.bt = .off
  | .main, _, .btEnable, s => Inv s ∧ s.initialised = true
  | .host, _, .nextEvent, s => Inv s ∧ s.owed = false
  | .host, _, .kWorkSubmit, s => Inv s ∧ s.bt ≠ .off ∧ s.owed = true
  | .workqueue, _, .nextWork, s => Inv s ∧ s.starting = false
  | .workqueue, _, .btLeAdvStart, s => Inv s ∧ s.bt ≠ .off ∧ s.starting = true
  | _, _, _, _ => False

def watch (i : Party) : Watch Call (Stack maxConn) := ⟨Inv, allowed i⟩

/-! ## What the calls do -/

theorem Delivers.on {e : Event} (h : Delivers s e t) (hs : Inv s) : s.bt ≠ .off := by
  intro hoff
  have hidle := hs.idle hoff
  cases h with
  | up h => simp [hoff] at h
  | down h => simp [hoff] at h
  | connected h => simp [hidle.slots] at h
  | refused h => simp [hidle.slots] at h
  | disconnected h => simp [hidle.slots] at h
  | recycled h => simp [hidle.recycles] at h

/-- An event after which nothing is owed leaves a connection object in use. -/
theorem Delivers.served {e : Event} (h : Delivers s e t) (hup : t.bt = .up) :
    Served { t with owed := e.asks } := by
  cases h with
  | up h => exact .inr (.inr (.inr (.inr (.inl rfl))))
  | down h => cases hup
  | @connected i h => exact .of_slot (i := i) (by simp [Stack.move])
  | @refused i _ h => exact .of_slot (i := i) (by simp [Stack.move])
  | @disconnected i _ h => exact .of_slot (i := i) (by simp [Stack.move])
  | recycled h => exact .inr (.inr (.inr (.inr (.inl rfl))))

theorem Delivers.promise {e : Event} (h : Delivers s e t) (hs : Inv s) :
    Promise .host s { t with owed := e.asks } := by
  have hon := h.on hs
  have hserved : t.bt = .up → Served { t with owed := e.asks } := h.served
  have hinit := hs.initialised hon
  cases h with
  | up h | down h =>
    exact ⟨⟨hserved, fun _ => hinit, fun hoff => by cases hoff⟩, fun _ => by simp, fun h => absurd rfl h,
      fun _ => rfl, fun _ hoff => absurd hoff hon, fun _ => rfl⟩
  | connected h | refused h | disconnected h | recycled h =>
    exact ⟨⟨hserved, fun _ => hinit, fun hoff => absurd hoff hon⟩, id, fun h => absurd rfl h,
      fun _ => rfl, fun _ => id, fun _ => rfl⟩

/-- A start that does not succeed was refused because an object is in use, or has failed. -/
theorem Starts.promise [Nonempty (Fin maxConn)] {rc : ℤ} (h : Starts s rc t) (hs : Inv s)
    (hon : s.bt ≠ .off) : Promise .workqueue s t := by
  have hserved : Served t := by
    cases h with
    | @started i hbt h hnone => exact .of_slot (i := i) (by simp [Stack.move])
    | refused hrc h =>
      cases h with
      | inl h =>
        obtain ⟨i, hi⟩ := h
        exact .of_slot (i := i) (by simp [hi])
      | inr h =>
        obtain ⟨i⟩ := ‹Nonempty (Fin maxConn)›
        exact .of_slot (h i)
    | failed hrc => exact .inr (.inr (.inr (.inr (.inr rfl))))
  have hinit := hs.initialised hon
  cases h with
  | _ =>
    exact ⟨⟨fun _ => hserved, fun _ => hinit, fun hoff => absurd hoff hon⟩, id, fun _ => rfl,
      fun h => absurd rfl h, fun _ => id, fun _ => rfl⟩

theorem allowed.promise [Nonempty (Fin maxConn)] {i : Party} {ρ : Type} {c : Call ρ}
    (h : allowed i c s) (r : ρ) (ha : (stack maxConn).answer c s r t) : Promise i s t := by
  cases c with
  | log m =>
    have hs : Inv s := by cases i <;> exact h
    obtain rfl : t = s := ha
    exact .refl i hs
  | statsInitAndReg | fsMount | usbEnable | kSleep =>
    cases i with
    | main =>
      obtain rfl : t = s := ha
      exact .refl _ h
    | host | workqueue => exact h.elim
  | statsIncTicks =>
    cases i with
    | main =>
      obtain rfl : t = { s with ticks := s.ticks + 1 } := ha
      have hidle : s.bt = .off → Idle { s with ticks := s.ticks + 1 } := fun hoff =>
        have hs := h.idle hoff
        ⟨hs.queued, hs.starting, hs.slots, hs.recycles⟩
      exact ⟨⟨h.served, h.initialised, hidle⟩, id, fun _ => rfl, fun _ => rfl, fun _ => id,
        fun _ => rfl⟩
    | host | workqueue => exact h.elim
  | kWorkInit =>
    cases i with
    | main =>
      obtain rfl : t = { s with initialised := true, queued := false } := ha
      have hidle := h.1.idle h.2
      exact ⟨⟨fun hup => by simp [h.2] at hup, fun _ => rfl,
        fun _ => ⟨rfl, hidle.starting, hidle.slots, hidle.recycles⟩⟩, id, fun _ => rfl,
        fun _ => rfl, fun _ => id, fun hne => absurd rfl hne⟩
    | host | workqueue => exact h.elim
  | kWorkSubmit =>
    cases i with
    | host =>
      obtain rfl : t = { s with queued := true, owed := false } := ha
      exact ⟨⟨fun _ => .inr (.inr (.inl rfl)), h.1.initialised, fun hoff => absurd hoff h.2.1⟩, id,
        fun hne => absurd rfl hne, fun _ => rfl, fun _ => id, fun _ => rfl⟩
    | main | workqueue => exact h.elim
  | btEnable =>
    cases i with
    | main =>
      rcases ha with ⟨-, -, rfl⟩ | ⟨-, rfl⟩
      · exact ⟨⟨fun hup => (by cases hup), fun _ => h.2, fun hoff => (by cases hoff)⟩,
          fun _ => by simp, fun _ => rfl, fun _ => rfl, fun hne => absurd rfl hne, fun _ => rfl⟩
      · exact .refl _ h.1
    | host | workqueue => exact h.elim
  | btLeAdvStart =>
    cases i with
    | workqueue => exact Starts.promise ha h.1 h.2.1
    | main | host => exact h.elim
  | nextEvent =>
    cases i with
    | host =>
      obtain ⟨u, hu, rfl⟩ := ha
      exact hu.promise h.1
    | main | workqueue => exact h.elim
  | nextWork =>
    cases i with
    | workqueue =>
      obtain ⟨hqueued, rfl⟩ := ha
      have hon : s.bt ≠ .off := fun hoff => by simp [(h.1.idle hoff).queued] at hqueued
      exact ⟨⟨fun _ => .inr (.inr (.inr (.inl rfl))), h.1.initialised,
        fun hoff => absurd hoff hon⟩, id, fun _ => rfl, fun hne => absurd rfl hne, fun _ => id,
        fun _ => rfl⟩
    | main | host => exact h.elim

/-! ## The threads -/

theorem log_triple {i : Party} {P : Stack maxConn → Prop} (m : Message)
    (hP : (beside maxConn i).Stable P) (hinv : ∀ s, P s → Inv s) :
    Triple (beside maxConn i) (watch i) P (liftM (Call.log m)) fun _ => P :=
  Triple.unchanged hP (fun s hs => by cases i <;> exact hinv s hs) fun _ _ _ ha => ha

/-- The host, with a submission owed or not. -/
def Hosting (owed : Bool) (s : Stack maxConn) : Prop := Inv s ∧ s.bt ≠ .off ∧ s.owed = owed

/-- The host waits for an event. -/
def Listening (s : Stack maxConn) : Prop := Inv s ∧ s.owed = false

theorem hosting_stable (b : Bool) : (beside maxConn .host).Stable (Hosting b) := by
  refine stable_beside (fun _ h => h.1) fun j s t hj hp hs => ?_
  exact ⟨hp.inv, hp.on hs.2.1, (hp.owed hj).trans hs.2.2⟩

theorem listening_stable : (beside maxConn .host).Stable Listening := by
  refine stable_beside (fun _ h => h.1) fun j s t hj hp hs => ?_
  exact ⟨hp.inv, (hp.owed hj).trans hs.2⟩

theorem Hosting.listening (h : Hosting false s) : Listening s := ⟨h.1, h.2.2⟩

theorem submit_triple [Nonempty (Fin maxConn)] :
    Triple (beside maxConn .host) (watch .host) (Hosting true) (liftM Call.kWorkSubmit) fun _ =>
      Listening := by
  refine Triple.lift (hosting_stable true) (fun _ => listening_stable) (fun s hs => hs) ?_
  intro s r t hs ha
  have hp : Promise .host s t := allowed.promise (c := .kWorkSubmit) hs r ha
  obtain rfl : t = { s with queued := true, owed := false } := ha
  exact ⟨hp.inv, rfl⟩

/-- A callback submits if its event asks for it. -/
theorem callback_triple [Nonempty (Fin maxConn)] (e : Event) :
    Triple (beside maxConn .host) (watch .host) (Hosting e.asks) (callback e) fun _ =>
      Listening := by
  have hlog : ∀ (m : Message) (b : Bool), Triple (beside maxConn .host) (watch .host) (Hosting b)
      (liftM (Call.log m)) fun _ => Hosting b :=
    fun m b => log_triple m (hosting_stable b) fun _ h => h.1
  have hdone : ∀ m : Message, Triple (beside maxConn .host) (watch .host) (Hosting false)
      (liftM (Call.log m)) fun _ => Listening :=
    fun m => (hlog m false).conseq (fun _ h => h) fun _ _ h => h.listening
  cases e with
  | ready err =>
    by_cases herr : err = 0
    · simp only [callback, btReady, herr, ne_eq, not_true_eq_false, if_false, Event.asks,
        decide_true]
      exact submit_triple
    · simp only [callback, btReady, herr, ne_eq, not_false_eq_true, if_true, Event.asks,
        decide_false]
      exact hdone _
  | connected err =>
    by_cases herr : err = 0
    · simp only [callback, connected, herr, ne_eq, not_true_eq_false, if_false, Event.asks,
        decide_false]
      exact hdone _
    · simp only [callback, connected, herr, ne_eq, not_false_eq_true, if_true, Event.asks,
        decide_true]
      exact (hlog _ _).bind fun _ => submit_triple
  | disconnected reason => exact hdone _
  | recycled => exact submit_triple

theorem nextEvent_triple [Nonempty (Fin maxConn)] :
    Triple (beside maxConn .host) (watch .host) Listening (liftM Call.nextEvent) fun e =>
      Hosting e.asks := by
  refine Triple.lift listening_stable (fun e => hosting_stable e.asks) (fun s hs => hs) ?_
  intro s e t hs ha
  have hp : Promise .host s t := allowed.promise (c := .nextEvent) hs e ha
  obtain ⟨u, hu, rfl⟩ := ha
  exact ⟨hp.inv, hp.on (hu.on hs.1), rfl⟩

theorem host_triple [Nonempty (Fin maxConn)] :
    Triple (beside maxConn .host) (watch .host) Listening host fun _ _ => False := by
  unfold host
  apply Triple.repeatM (fun _ => Listening) (b := ()) (fun _ => listening_stable)
    (fun _ _ _ _ h => h) fun _ _ h => h.1
  intro _
  apply nextEvent_triple.bind
  intro e
  apply (callback_triple e).bind
  intro _
  exact Triple.pure listening_stable fun _ h => h

/-! ## The work queue -/

/-- The work queue waits for an item, or has started the advertiser. -/
def Resting (s : Stack maxConn) : Prop := Inv s ∧ s.starting = false

/-- The work queue runs the handler, which has not started the advertiser yet. -/
def Working (s : Stack maxConn) : Prop := Inv s ∧ s.bt ≠ .off ∧ s.starting = true

theorem resting_stable : (beside maxConn .workqueue).Stable Resting := by
  refine stable_beside (fun _ h => h.1) fun j s t hj hp hs => ?_
  exact ⟨hp.inv, (hp.starting hj).trans hs.2⟩

theorem working_stable : (beside maxConn .workqueue).Stable Working := by
  refine stable_beside (fun _ h => h.1) fun j s t hj hp hs => ?_
  exact ⟨hp.inv, hp.on hs.2.1, (hp.starting hj).trans hs.2.2⟩

theorem Starts.resting {rc : ℤ} (h : Starts s rc t) : t.starting = false := by
  cases h <;> rfl

theorem advertise_triple [Nonempty (Fin maxConn)] :
    Triple (beside maxConn .workqueue) (watch .workqueue) Working advertise fun _ => Resting := by
  have hstart : Triple (beside maxConn .workqueue) (watch .workqueue) Working
      (liftM Call.btLeAdvStart) fun _ => Resting := by
    apply Triple.lift working_stable (fun _ => resting_stable) fun s hs => hs
    intro s rc t hs ha
    exact ⟨(Starts.promise ha hs.1 hs.2.1).inv, Starts.resting ha⟩
  unfold advertise
  apply hstart.bind
  intro rc
  by_cases hrc : rc = 0
  · simp only [hrc, ne_eq, not_true_eq_false, if_false]
    exact log_triple _ resting_stable fun _ h => h.1
  · simp only [hrc, ne_eq, not_false_eq_true, if_true]
    exact log_triple _ resting_stable fun _ h => h.1

theorem workqueue_triple [Nonempty (Fin maxConn)] :
    Triple (beside maxConn .workqueue) (watch .workqueue) Resting workqueue fun _ _ => False := by
  have hnext : Triple (beside maxConn .workqueue) (watch .workqueue) Resting
      (liftM Call.nextWork) fun _ => Working := by
    apply Triple.lift resting_stable (fun _ => working_stable) fun s hs => hs
    intro s r t hs ha
    have hp : Promise .workqueue s t := allowed.promise (c := .nextWork) hs r ha
    obtain ⟨hqueued, rfl⟩ := ha
    exact ⟨hp.inv, fun hoff => by simp [(hs.1.idle hoff).queued] at hqueued, rfl⟩
  unfold workqueue
  apply Triple.repeatM (fun _ => Resting) (b := ()) (fun _ => resting_stable)
    (fun _ _ _ _ h => h) fun _ _ h => h.1
  intro _
  apply hnext.bind
  intro _
  apply advertise_triple.bind
  intro _
  exact Triple.pure resting_stable fun _ h => h

/-! ## The main thread -/

/-- Bluetooth is still off. -/
def Off (s : Stack maxConn) : Prop := Inv s ∧ s.bt = .off

theorem off_stable : (beside maxConn .main).Stable Off := by
  refine stable_beside (fun _ h => h.1) fun j s t hj hp hs => ?_
  exact ⟨hp.inv, hp.off hj hs.2⟩

theorem startSmpBluetoothAdverts_triple [Nonempty (Fin maxConn)] :
    Triple (beside maxConn .main) (watch .main) Off startSmpBluetoothAdverts fun _ => Inv := by
  have hstable : (beside maxConn .main).Stable fun s => Inv s ∧ s.initialised = true := by
    refine stable_beside (fun _ h => h.1) fun j s t hj hp hs => ?_
    exact ⟨hp.inv, (hp.initialised hj).trans hs.2⟩
  have hinit : Triple (beside maxConn .main) (watch .main) Off (liftM Call.kWorkInit) fun _ s =>
      Inv s ∧ s.initialised = true := by
    refine Triple.lift off_stable (fun _ => hstable) (fun s hs => hs) ?_
    intro s r t hs ha
    have hp : Promise .main s t := allowed.promise (c := .kWorkInit) hs r ha
    obtain rfl : t = { s with initialised := true, queued := false } := ha
    exact ⟨hp.inv, rfl⟩
  have henable : Triple (beside maxConn .main) (watch .main)
      (fun s => Inv s ∧ s.initialised = true) (liftM Call.btEnable) fun _ => Inv := by
    refine Triple.lift hstable (fun _ => inv_stable _) (fun s hs => hs) ?_
    intro s r t hs ha
    exact (allowed.promise (i := .main) (c := .btEnable) hs r ha).inv
  unfold startSmpBluetoothAdverts
  apply hinit.bind
  intro _
  apply henable.bind
  intro rc
  by_cases hrc : rc = 0
  · simp only [hrc, ne_eq, not_true_eq_false, if_false]
    exact Triple.pure (inv_stable _) fun _ h => h
  · simp only [hrc, ne_eq, not_false_eq_true, if_true]
    exact log_triple _ (inv_stable _) fun _ h => h

/-- A call of `main` that has nothing to do with Bluetooth. -/
def plain {ρ : Type} : Call ρ → Prop
  | .log _ => True
  | .statsInitAndReg => True
  | .fsMount => True
  | .usbEnable => True
  | .kSleep _ => True
  | _ => False

theorem plain_triple {P : Stack maxConn → Prop} {ρ : Type} {c : Call ρ} (hc : plain c)
    (hP : (beside maxConn .main).Stable P) (hinv : ∀ s, P s → Inv s) :
    Triple (beside maxConn .main) (watch .main) P (liftM c) fun _ => P := by
  cases c with
  | log m => exact log_triple m hP hinv
  | statsInitAndReg | fsMount | usbEnable | kSleep =>
    exact Triple.unchanged hP hinv fun _ _ _ ha => ha
  | _ => exact hc.elim

/-- A call of `main` and the message that it failed. -/
theorem report_triple {P : Stack maxConn → Prop} {c : Call ℤ} {m : ℤ → Message} (hc : plain c)
    (hP : (beside maxConn .main).Stable P) (hinv : ∀ s, P s → Inv s) :
    Triple (beside maxConn .main) (watch .main) P (do
      let rc ← c
      if rc < 0 then Call.log (m rc)) fun _ => P := by
  apply (plain_triple hc hP hinv).bind
  intro rc
  split_ifs
  · exact log_triple _ hP hinv
  · exact Triple.pure hP fun _ h => h

theorem ifdef_triple {P : Stack maxConn → Prop} {p : Prog Call Unit} (option : Bool)
    (hP : (beside maxConn .main).Stable P)
    (hp : Triple (beside maxConn .main) (watch .main) P p fun _ => P) :
    Triple (beside maxConn .main) (watch .main) P (ifdef option p) fun _ => P := by
  cases option
  · exact Triple.pure hP fun _ h => h
  · exact hp

theorem ticks_triple [Nonempty (Fin maxConn)] :
    Triple (beside maxConn .main) (watch .main) Inv ticks fun _ => Inv := by
  unfold ticks
  apply Triple.repeatM (fun _ => Inv) (b := ()) (fun _ => inv_stable _) (fun _ => inv_stable _)
    fun _ _ h => h
  intro _
  apply (plain_triple (c := .kSleep 1000) trivial (inv_stable _) fun _ h => h).bind
  intro _
  have htick : Triple (beside maxConn .main) (watch .main) Inv (liftM Call.statsIncTicks)
      fun _ => Inv := by
    refine Triple.lift (inv_stable _) (fun _ => inv_stable _) (fun s hs => hs) ?_
    intro s r t hs ha
    exact (allowed.promise (i := .main) (c := .statsIncTicks) hs r ha).inv
  apply htick.bind
  intro _
  exact Triple.pure (inv_stable _) fun _ h => h

theorem serve_triple [Nonempty (Fin maxConn)] :
    Triple (beside maxConn .main) (watch .main) Inv serve fun _ => Inv := by
  unfold serve
  exact (log_triple _ (inv_stable _) fun _ h => h).bind fun _ => ticks_triple

theorem startUsb_triple [Nonempty (Fin maxConn)] :
    Triple (beside maxConn .main) (watch .main) Inv startUsb fun _ => Inv := by
  unfold startUsb
  apply (plain_triple (c := .usbEnable) trivial (inv_stable _) fun _ h => h).bind
  intro rc
  split_ifs
  · apply (log_triple _ (inv_stable _) fun _ h => h).bind
    intro _
    exact Triple.pure (inv_stable _) fun _ h => h
  · exact serve_triple

theorem main_triple [Nonempty (Fin maxConn)] (cfg : Config) :
    Triple (beside maxConn .main) (watch .main) Off (main cfg) fun _ => Inv := by
  have hbluetooth : Triple (beside maxConn .main) (watch .main) Off
      (ifdef cfg.transportBt startSmpBluetoothAdverts) fun _ => Inv := by
    cases cfg.transportBt
    · exact Triple.pure off_stable fun _ h => h.1
    · exact startSmpBluetoothAdverts_triple
  unfold main
  apply (log_triple _ off_stable fun _ h => h.1).bind
  intro _
  apply (report_triple (c := .statsInitAndReg) trivial off_stable fun _ h => h.1).bind
  intro _
  apply (ifdef_triple cfg.grpFs off_stable
    (report_triple (c := .fsMount) trivial off_stable fun _ h => h.1)).bind
  intro _
  apply hbluetooth.bind
  intro _
  split_ifs
  · exact startUsb_triple
  · exact serve_triple

/-! ## The server -/

theorem server_team [Nonempty (Fin maxConn)] (cfg : Config) :
    Team (stack maxConn) watch Promise (fun _ _ s => Inv s) (server cfg) boot where
  safe i := by
    cases i with
    | main => exact main_triple cfg boot ⟨inv_boot, rfl⟩
    | host => exact (host_triple boot ⟨inv_boot, rfl⟩).imp fun _ _ h => h.elim
    | workqueue => exact (workqueue_triple boot ⟨inv_boot, rfl⟩).imp fun _ _ h => h.elim
  promise i _ _ _ h r _ ha := allowed.promise h r ha

/-- The host and the work queue both wait, and no work is queued and no `recycled` to be called. -/
structure Waiting (p : Party → Prog Call ℤ) (s : Stack maxConn) : Prop where
  host : (p .host).Calls .nextEvent
  workqueue : (p .workqueue).Calls .nextWork
  queued : s.queued = false
  recycles : s.recycles = 0

/-- **The server stays reachable.** Whenever both threads wait, with Bluetooth up, the server
advertises or a link holds a connection object, unless the last start of the advertiser failed. -/
theorem reachable [Nonempty (Fin maxConn)] {cfg : Config} {p : Party → Prog Call ℤ}
    (h : TeamSteps (stack maxConn) (server cfg, boot) (p, s)) (hp : Waiting p s)
    (hup : s.bt = .up) : (∃ i, s.slots i ≠ .free) ∨ s.failed = true := by
  have hhost : Listening s := (server_team cfg).atCall h hp.host
  have hwork : Resting s := (server_team cfg).atCall h hp.workqueue
  rcases hhost.1.served hup with hslot | hrec | hqueued | hstarting | howed | hfailed
  · exact .inl hslot
  · rw [hp.recycles] at hrec
    exact absurd hrec (Nat.lt_irrefl 0)
  · rw [hp.queued] at hqueued
    cases hqueued
  · rw [hwork.2] at hstarting
    cases hstarting
  · rw [hhost.2] at howed
    cases howed
  · exact .inr hfailed

def bluetoothOnly : Config := ⟨false, true, false⟩

/-- `main` starts Bluetooth, the host delivers `ready`, and the work queue runs `advertise`; then
all wait. -/
abbrev startUp : List (Party × ℕ) := [(.main, 10), (.host, 5), (.workqueue, 5)]

theorem startUp_steps (rc : ℤ) : TeamSteps (stack 1) (server bluetoothOnly, boot)
    (rota (reply rc) startUp (server bluetoothOnly, boot)) :=
  rota_steps (reply_follows rc) _ _

/-- When all went well, the server advertises. -/
theorem reachable_startUp :
    (∃ i, (rota (reply 0) startUp (server bluetoothOnly, boot)).2.slots i ≠ .free) ∨
      (rota (reply 0) startUp (server bluetoothOnly, boot)).2.failed = true :=
  reachable (startUp_steps 0) ⟨⟨_, rfl⟩, ⟨_, rfl⟩, rfl, rfl⟩ rfl

/-! ## A start that failed is final -/

/-- The server neither advertises nor has anything left that could make it. -/
structure Silent (s : Stack maxConn) : Prop where
  up : s.bt = .up
  slots : ∀ i, s.slots i = .free
  queued : s.queued = false
  recycles : s.recycles = 0
  starting : s.starting = false
  owed : s.owed = false

theorem Silent.not_moves (h : Silent s) : ¬ Moves s t := by
  intro hm
  cases hm with
  | established hi | refused hi | released hi => simp [h.slots] at hi

theorem Silent.not_delivers (h : Silent s) {e : Event} : ¬ Delivers s e t := by
  intro hd
  cases hd with
  | up hi | down hi => simp [h.up] at hi
  | connected hi | refused hi | disconnected hi => simp [h.slots] at hi
  | recycled hi => simp [h.recycles] at hi

theorem Silent.answer {i : Party} {ρ : Type} {c : Call ρ} {r : ρ} (h : Silent s)
    (hc : allowed i c s) (ha : (stack maxConn).answer c s r t) : Silent t := by
  cases c with
  | log | statsInitAndReg | fsMount | usbEnable | kSleep =>
    obtain rfl : t = s := ha
    exact h
  | statsIncTicks =>
    obtain rfl : t = { s with ticks := s.ticks + 1 } := ha
    exact ⟨h.up, h.slots, h.queued, h.recycles, h.starting, h.owed⟩
  | kWorkInit =>
    obtain rfl : t = { s with initialised := true, queued := false } := ha
    exact ⟨h.up, h.slots, rfl, h.recycles, h.starting, h.owed⟩
  | btEnable =>
    rcases ha with ⟨-, hoff, -⟩ | ⟨-, rfl⟩
    · simp [h.up] at hoff
    · exact h
  | kWorkSubmit =>
    cases i with
    | host =>
      have howed : s.owed = true := hc.2.2
      simp [h.owed] at howed
    | main | workqueue => exact hc.elim
  | btLeAdvStart =>
    cases i with
    | workqueue =>
      have hstarting : s.starting = true := hc.2.2
      simp [h.starting] at hstarting
    | main | host => exact hc.elim
  | nextEvent =>
    obtain ⟨u, hu, -⟩ := ha
    exact absurd hu h.not_delivers
  | nextWork =>
    have hqueued : s.queued = true := ha.1
    simp [h.queued] at hqueued

theorem Silent.step [Nonempty (Fin maxConn)] {cfg : Config} {p q : Party → Prog Call ℤ}
    (h : TeamSteps (stack maxConn) (server cfg, boot) (p, s)) (hs : Silent s)
    (hstep : TeamStep (stack maxConn) (p, s) (q, t)) : Silent t := by
  have hteam := (server_team cfg).steps h
  cases hstep with
  | @party _ _ _ p' i hstep =>
    have hhere := hteam.safe i _ _ .refl
    generalize p i = x at hstep hhere
    cases hstep with
    | call ha => exact hs.answer hhere ha
    | enter => exact hs
    | move _ hm => exact absurd hm hs.not_moves

/-- Whatever the threads do, the silence does not end. -/
theorem Silent.steps [Nonempty (Fin maxConn)] {cfg : Config} {p q : Party → Prog Call ℤ}
    (h : TeamSteps (stack maxConn) (server cfg, boot) (p, s)) (hs : Silent s)
    (hq : TeamSteps (stack maxConn) (p, s) (q, t)) : Silent t := by
  suffices hall : ∀ x, TeamSteps (stack maxConn) (p, s) x → Silent x.2 from hall _ hq
  intro x hx
  induction hx with
  | refl => exact hs
  | tail hy hstep ih => exact Silent.step (h.trans hy) ih hstep

/-- The two threads go on waiting. -/
theorem Waiting.step {p q : Party → Prog Call ℤ} (hp : Waiting p s) (hs : Silent s)
    (ht : Silent t) (hstep : TeamStep (stack maxConn) (p, s) (q, t)) : Waiting q t := by
  cases hstep with
  | @party _ _ _ p' i hstep =>
    cases i with
    | host =>
      obtain ⟨k, hk⟩ := hp.host
      rw [hk] at hstep
      cases hstep with
      | call ha =>
        obtain ⟨u, hu, -⟩ := ha
        exact absurd hu hs.not_delivers
      | move _ hm => exact absurd hm hs.not_moves
    | workqueue =>
      obtain ⟨k, hk⟩ := hp.workqueue
      rw [hk] at hstep
      cases hstep with
      | call ha =>
        have hqueued : s.queued = true := ha.1
        simp [hs.queued] at hqueued
      | move _ hm => exact absurd hm hs.not_moves
    | main =>
      refine ⟨?_, ?_, ht.queued, ht.recycles⟩
      · rw [Function.update_of_ne (by decide)]
        exact hp.host
      · rw [Function.update_of_ne (by decide)]
        exact hp.workqueue

/-- **A failed start is final.** Once both threads wait, with nothing queued and no `recycled` pending,
with Bluetooth up and no connection object in use, the server never advertises again. -/
theorem unreachable_forever [Nonempty (Fin maxConn)] {cfg : Config} {p q : Party → Prog Call ℤ}
    (h : TeamSteps (stack maxConn) (server cfg, boot) (p, s)) (hp : Waiting p s)
    (hup : s.bt = .up) (hfree : ∀ i, s.slots i = .free)
    (hq : TeamSteps (stack maxConn) (p, s) (q, t)) : Waiting q t ∧ ∀ i, t.slots i = .free := by
  have hlistening : Listening s := (server_team cfg).atCall h hp.host
  have hresting : Resting s := (server_team cfg).atCall h hp.workqueue
  have hs : Silent s := ⟨hup, hfree, hp.queued, hp.recycles, hresting.2, hlistening.2⟩
  suffices hall : ∀ x, TeamSteps (stack maxConn) (p, s) x → Waiting x.1 x.2 from
    ⟨hall _ hq, (hs.steps h hq).slots⟩
  intro x hx
  induction hx with
  | refl => exact hp
  | tail hy hstep ih => exact ih.step (hs.steps h hy) (hs.steps h (hy.tail hstep)) hstep

/-- It stays as it is after the first start has failed. -/
theorem unreachable_startUp :
    Waiting (rota (reply (-5)) startUp (server bluetoothOnly, boot)).1
        (rota (reply (-5)) startUp (server bluetoothOnly, boot)).2 ∧
      ∀ i, (rota (reply (-5)) startUp (server bluetoothOnly, boot)).2.slots i = .free :=
  unreachable_forever (startUp_steps (-5)) ⟨⟨_, rfl⟩, ⟨_, rfl⟩, rfl, rfl⟩ rfl (fun _ => rfl) .refl

/-! ## The work item -/

/-- The work queue has no item in hand: it waits for one, or has not started. -/
def Unused (q : Prog Call ℤ) : Prop := q = workqueue ∨ q.Calls .nextWork

/-- Nothing is queued for it while Bluetooth is off. -/
theorem unused_step [Nonempty (Fin maxConn)] {cfg : Config} {p q : Party → Prog Call ℤ}
    (h : TeamSteps (stack maxConn) (server cfg, boot) (p, s))
    (hp : s.bt = .off → Unused (p .workqueue))
    (hstep : TeamStep (stack maxConn) (p, s) (q, t)) (hoff : t.bt = .off) :
    Unused (q .workqueue) := by
  have hteam := (server_team cfg).steps h
  cases hstep with
  | @party _ _ _ p' i hstep =>
    have hhere := hteam.safe i _ _ .refl
    have hwas : s.bt = .off := by
      apply Decidable.byContradiction
      intro hon
      generalize p i = x at hstep hhere
      cases hstep with
      | call ha => exact (allowed.promise hhere _ ha).on hon hoff
      | enter => exact hon hoff
      | move _ hm =>
        cases hm with
        | _ => exact hon hoff
    by_cases hi : i = .workqueue
    · subst hi
      rw [Function.update_self]
      obtain heq | ⟨k, hk⟩ := hp hwas
      · rw [heq] at hstep
        cases hstep with
        | enter => exact .inr ⟨_, rfl⟩
        | move => exact .inl rfl
      · rw [hk] at hstep hhere
        cases hstep with
        | call ha =>
          have hinv : Inv s := hhere.1
          have hqueued : s.queued = true := ha.1
          rw [(hinv.idle hwas).queued] at hqueued
          cases hqueued
        | move => exact .inr ⟨k, rfl⟩
    · rw [Function.update_of_ne (Ne.symm hi)]
      exact hp hwas

theorem unused_of_off [Nonempty (Fin maxConn)] {cfg : Config} {p : Party → Prog Call ℤ}
    (h : TeamSteps (stack maxConn) (server cfg, boot) (p, s)) (hoff : s.bt = .off) :
    Unused (p .workqueue) := by
  suffices hall : ∀ x, TeamSteps (stack maxConn) (server cfg, boot) x → x.2.bt = .off →
      Unused (x.1 .workqueue) from hall _ h hoff
  intro x hx
  induction hx with
  | refl => exact fun _ => .inl rfl
  | tail hy hstep ih => exact unused_step hy ih hstep

/-- The work item is initialised before it is ever submitted, and while it is not queued and the work
queue has not taken it. -/
theorem work_item [Nonempty (Fin maxConn)] {cfg : Config} {p : Party → Prog Call ℤ}
    (h : TeamSteps (stack maxConn) (server cfg, boot) (p, s)) :
    ((p .host).Calls .kWorkSubmit → s.initialised = true) ∧
      ((p .main).Calls .kWorkInit →
        s.queued = false ∧ s.starting = false ∧ Unused (p .workqueue)) := by
  constructor
  · intro hc
    have hsubmit : Inv s ∧ s.bt ≠ .off ∧ s.owed = true := (server_team cfg).atCall h hc
    exact hsubmit.1.initialised hsubmit.2.1
  · intro hc
    have hinit : Inv s ∧ s.bt = .off := (server_team cfg).atCall h hc
    have hidle := hinit.1.idle hinit.2
    exact ⟨hidle.queued, hidle.starting, unused_of_off h hinit.2⟩

/-- The host is about to submit for the first time. -/
theorem work_item_ready :
    (rota (reply 0) [(.main, 10), (.host, 2)] (server bluetoothOnly, boot)).2.initialised = true :=
  (work_item (rota_steps (reply_follows 0) _ _)).1 ⟨_, rfl⟩

end NrfProjects.SmpServer
