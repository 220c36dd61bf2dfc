import NrfProjects.Interaction.Daemons
import NrfProjects.SmpServer.Advertising

/-! # When the server can advertise again

After a link has ended, the advertiser is started again by three threads that pass the task on: the
stack releases the connection object, the host's callback submits the work item, the work queue
runs it. From any point of any run they can still come to it, unless nothing is left to pass on. -/

namespace NrfProjects.SmpServer
set_option autoImplicit false
open Interaction Prog

variable {maxConn : ℕ} {cfg : Config} {p q : Party → Prog Call ℤ} {s t u : Stack maxConn}

/-- Something is left that can make the server advertise. -/
def Live (s : Stack maxConn) : Prop :=
  (∃ i, s.slots i ≠ .free) ∨ 0 < s.recycles ∨ s.queued = true ∨ s.starting = true ∨ s.owed = true

theorem Served.live (h : Served s) (hok : s.failed = false) : Live s := by
  rcases h with hslot | hrec | hqueued | hstarting | howed | hfailed
  · exact .inl hslot
  · exact .inr (.inl hrec)
  · exact .inr (.inr (.inl hqueued))
  · exact .inr (.inr (.inr (.inl hstarting)))
  · exact .inr (.inr (.inr (.inr howed)))
  · rw [hok] at hfailed
    cases hfailed

/-- The server advertises after some further steps. -/
def Advertises (p : Party → Prog Call ℤ) (s : Stack maxConn) : Prop :=
  ∃ q t, TeamSteps (stack maxConn) (p, s) (q, t) ∧ ∃ i, t.slots i = .advertising

theorem Advertises.after (h : TeamSteps (stack maxConn) (p, s) (q, t)) (hq : Advertises q t) :
    Advertises p s := by
  obtain ⟨q', t', hsteps, hslot⟩ := hq
  exact ⟨q', t', h.trans hsteps, hslot⟩

/-! ## The invariant at every point -/

theorem allowed.inv {i : Party} {ρ : Type} {c : Call ρ} (h : allowed i c s) : Inv s := by
  cases c with
  | log m => cases i <;> exact h
  | kWorkInit | btEnable =>
    cases i with
    | main => exact h.1
    | host | workqueue => exact h.elim
  | nextEvent | kWorkSubmit =>
    cases i with
    | host => exact h.1
    | main | workqueue => exact h.elim
  | nextWork | btLeAdvStart =>
    cases i with
    | workqueue => exact h.1
    | main | host => exact h.elim
  | _ =>
    cases i with
    | main => exact h
    | host | workqueue => exact h.elim

theorem inv_reached [Nonempty (Fin maxConn)]
    (h : TeamSteps (stack maxConn) (server cfg, boot) (p, s)) : Inv s := by
  have hhere := ((server_team cfg).steps h).safe .main _ _ .refl
  generalize p .main = x at hhere
  cases x with
  | ret a => exact hhere
  | call c k => exact allowed.inv hhere
  | loop b body k => exact hhere

/-! ## The two daemons -/

/-- The calls of the callbacks. -/
def callbackCall {ρ : Type} : Call ρ → Prop
  | .log _ => True
  | .kWorkSubmit => True
  | _ => False

/-- The calls of the work handler. -/
def handlerCall {ρ : Type} : Call ρ → Prop
  | .log _ => True
  | .btLeAdvStart => True
  | _ => False

theorem callback_calls (e : Event) : (callback e).LoopFree ∧ (callback e).Only callbackCall := by
  cases e with
  | ready err =>
    exact ⟨LoopFree.ite (loopFree_lift _) (loopFree_lift _),
      Only.ite (only_lift trivial) (only_lift trivial)⟩
  | connected err =>
    exact ⟨LoopFree.ite (LoopFree.bind (loopFree_lift _) fun _ => loopFree_lift _)
        (loopFree_lift _),
      Only.ite (Only.seq (only_lift trivial) fun _ => only_lift trivial) (only_lift trivial)⟩
  | disconnected reason => exact ⟨loopFree_lift _, only_lift trivial⟩
  | recycled => exact ⟨loopFree_lift _, only_lift trivial⟩

theorem advertise_calls : advertise.LoopFree ∧ advertise.Only handlerCall := by
  constructor
  · exact LoopFree.bind (loopFree_lift _) fun _ => LoopFree.ite (loopFree_lift _) (loopFree_lift _)
  · exact Only.seq (only_lift trivial) fun _ => Only.ite (only_lift trivial) (only_lift trivial)

/-- The host at its wait. -/
abbrev hostWaits : Prog Call ℤ := waiting Call.nextEvent callback

/-- The work queue at its wait. -/
abbrev workqueueWaits : Prog Call ℤ := waiting Call.nextWork fun _ => advertise

theorem host_atDaemon (h : TeamSteps (stack maxConn) (server cfg, boot) (p, s)) :
    (p .host).AtDaemon Call.nextEvent callback callbackCall :=
  TeamSteps.program (fun _ _ _ _ hs hq => hq.step callback_calls hs) h .host atDaemon_daemon

theorem workqueue_atDaemon (h : TeamSteps (stack maxConn) (server cfg, boot) (p, s)) :
    (p .workqueue).AtDaemon Call.nextWork (fun _ => advertise) handlerCall :=
  TeamSteps.program (fun _ _ _ _ hs hq => hq.step (fun _ => advertise_calls) hs) h .workqueue
    atDaemon_daemon

/-! ## Coming to the waits -/

/-- Both threads wait, with Bluetooth up. -/
structure Ready (cfg : Config) (p : Party → Prog Call ℤ) (s : Stack maxConn) : Prop where
  reached : TeamSteps (stack maxConn) (server cfg, boot) (p, s)
  host : p .host = hostWaits
  workqueue : p .workqueue = workqueueWaits
  up : s.bt = .up

theorem Ready.owed [Nonempty (Fin maxConn)] (h : Ready cfg p s) : s.owed = false := by
  have hlistening : Listening s := (server_team cfg).atCall h.reached ⟨_, h.host⟩
  exact hlistening.2

theorem Ready.starting [Nonempty (Fin maxConn)] (h : Ready cfg p s) : s.starting = false := by
  have hresting : Resting s := (server_team cfg).atCall h.reached ⟨_, h.workqueue⟩
  exact hresting.2

/-- A start can be answered, and leaves a connection object in use. -/
theorem starts_live [Nonempty (Fin maxConn)] (hup : s.bt = .up) :
    ∃ rc t, Starts s rc t ∧ t.bt = .up ∧ Live t := by
  by_cases hadv : ∃ i, s.slots i = .advertising
  · obtain ⟨i, hi⟩ := hadv
    exact ⟨-1, _, .refused (by decide) (.inl ⟨i, hi⟩), hup, .inl ⟨i, by simp [hi]⟩⟩
  · by_cases hfree : ∃ i, s.slots i = .free
    · obtain ⟨i, hi⟩ := hfree
      refine ⟨0, _, .started hup hi (fun j hj => hadv ⟨j, hj⟩), hup, .inl ⟨i, ?_⟩⟩
      simp [Stack.move]
    · obtain ⟨i⟩ := ‹Nonempty (Fin maxConn)›
      have hused : ∀ j, s.slots j ≠ .free := fun j hj => hfree ⟨j, hj⟩
      exact ⟨-1, _, .refused (by decide) (.inr hused), hup, .inl ⟨i, hused i⟩⟩

/-- From any point the two threads can come to their waits, and something is still left. -/
theorem comes_ready [Nonempty (Fin maxConn)]
    (h : TeamSteps (stack maxConn) (server cfg, boot) (p, s)) (hup : s.bt = .up)
    (hlive : Live s) :
    ∃ q t, TeamSteps (stack maxConn) (p, s) (q, t) ∧ Ready cfg q t ∧ Live t := by
  have hhost : ∃ t, Steps (stack maxConn) (p .host, s) (hostWaits, t) ∧ t.bt = .up ∧ Live t := by
    refine (host_atDaemon h).comesBack (I := fun s : Stack maxConn => s.bt = .up ∧ Live s) ?_
      ⟨hup, hlive⟩
    intro ρ c s hc hs
    cases c with
    | log m => exact ⟨(), s, rfl, hs⟩
    | kWorkSubmit => exact ⟨(), _, rfl, hs.1, .inr (.inr (.inl rfl))⟩
    | _ => exact hc.elim
  obtain ⟨t, hrun, ht⟩ := hhost
  have hrun := TeamSteps.of_steps (p := p) .host hrun
  have hwork : ∃ u, Steps (stack maxConn) (Function.update p .host hostWaits .workqueue, t)
      (workqueueWaits, u) ∧ u.bt = .up ∧ Live u := by
    refine (workqueue_atDaemon (h.trans hrun)).comesBack (I := fun s : Stack maxConn => s.bt = .up ∧ Live s)
      ?_ ht
    intro ρ c s hc hs
    cases c with
    | log m => exact ⟨(), s, rfl, hs⟩
    | btLeAdvStart => exact starts_live hs.1
    | _ => exact hc.elim
  obtain ⟨u, hrun', hu⟩ := hwork
  have hsteps := hrun.trans (TeamSteps.of_steps .workqueue hrun')
  refine ⟨_, u, hsteps, ⟨h.trans hsteps, ?_, ?_, hu.1⟩, hu.2⟩
  · rw [Function.update_of_ne (by decide), Function.update_self]
  · rw [Function.update_self]

/-! ## From the waits -/

/-- The host handles an event, and submits if the event asks for it. -/
theorem Ready.handle [Nonempty (Fin maxConn)] {e : Event} (h : Ready cfg p s)
    (hd : Delivers s e u) (hup : u.bt = .up) :
    ∃ q t, TeamSteps (stack maxConn) (p, s) (q, t) ∧ Ready cfg q t ∧ t.slots = u.slots ∧
      (e.asks = true → t.queued = true) := by
  have hround : ∃ t, Steps (stack maxConn) ((callback e).bind fun _ => SmpServer.host,
      { u with owed := e.asks }) (hostWaits, t) ∧
        t.bt = .up ∧ t.slots = u.slots ∧ (e.asks = true → t.owed = true ∨ t.queued = true) := by
    have hbusy : ((callback e).bind fun _ => SmpServer.host).AtDaemon Call.nextEvent callback callbackCall :=
      .busy _ (callback_calls e).1 (callback_calls e).2
    refine hbusy.comesBack (I := fun t : Stack maxConn => t.bt = .up ∧ t.slots = u.slots ∧
      (e.asks = true → t.owed = true ∨ t.queued = true)) ?_ ⟨hup, rfl, .inl⟩
    intro ρ c s hc hs
    cases c with
    | log m => exact ⟨(), s, rfl, hs⟩
    | kWorkSubmit => exact ⟨(), _, rfl, hs.1, hs.2.1, fun _ => .inr rfl⟩
    | _ => exact hc.elim
  obtain ⟨t, hrun, hbt, hslots, hasks⟩ := hround
  have hevent : Step (stack maxConn) (p .host, s)
      ((callback e).bind fun _ => SmpServer.host, { u with owed := e.asks }) := by
    rw [h.host]
    exact .call ⟨u, hd, rfl⟩
  have hsteps := TeamSteps.of_steps (p := p) .host (hrun.head hevent)
  have hready : Ready cfg (Function.update p .host hostWaits) t := by
    refine ⟨h.reached.trans hsteps, Function.update_self .., ?_, hbt⟩
    rw [Function.update_of_ne (by decide)]
    exact h.workqueue
  refine ⟨_, t, hsteps, hready, hslots, fun he => ?_⟩
  cases hasks he with
  | inl howed =>
    rw [hready.owed] at howed
    cases howed
  | inr hqueued => exact hqueued

theorem Ready.start {i : Fin maxConn} (h : Ready cfg p s) (hqueued : s.queued = true)
    (hfree : s.slots i = .free) : Advertises p s := by
  by_cases hadv : ∃ j, s.slots j = .advertising
  · exact ⟨p, s, .refl, hadv⟩
  · have htake : Step (stack maxConn) (p .workqueue, s)
        (advertise.bind fun _ => SmpServer.workqueue, { s with queued := false, starting := true }) := by
      rw [h.workqueue]
      exact .call (r := ()) ⟨hqueued, rfl⟩
    have hstart : Starts { s with queued := false, starting := true } 0 _ :=
      .started h.up hfree fun j hj => hadv ⟨j, hj⟩
    have hsteps := TeamSteps.of_steps (p := p) .workqueue ((Relation.ReflTransGen.single htake).tail
      (.call (D := stack maxConn) (c := .btLeAdvStart) hstart))
    exact ⟨_, _, hsteps, i, move_slot ..⟩

theorem Ready.recycle [Nonempty (Fin maxConn)] {i : Fin maxConn} (h : Ready cfg p s)
    (hrec : 0 < s.recycles) (hfree : s.slots i = .free) : Advertises p s := by
  obtain ⟨q, t, hsteps, hready, hslots, hqueued⟩ := h.handle (.recycled hrec) h.up
  refine .after hsteps (hready.start (i := i) (hqueued rfl) ?_)
  rw [hslots]
  exact hfree

theorem Ready.release [Nonempty (Fin maxConn)] {i : Fin maxConn} (h : Ready cfg p s)
    (hended : s.slots i = .ended) : Advertises p s := by
  have hstep : TeamStep (stack maxConn) (p, s)
      (p, { s.move i .free with recycles := s.recycles + 1 }) := by
    have hmove : Step (stack maxConn) (p .main, s)
        (p .main, { s.move i .free with recycles := s.recycles + 1 }) :=
      .move _ (.released hended)
    have hparty := TeamStep.party (p := p) .main hmove
    rwa [Function.update_eq_self] at hparty
  have hready : Ready cfg p { s.move i .free with recycles := s.recycles + 1 } :=
    ⟨h.reached.tail hstep, h.host, h.workqueue, h.up⟩
  exact .after (.single hstep) (hready.recycle (Nat.succ_pos _) (move_slot ..))

theorem Ready.disconnect [Nonempty (Fin maxConn)] {i : Fin maxConn} (h : Ready cfg p s)
    (hopened : s.slots i = .opened) : Advertises p s := by
  obtain ⟨q, t, hsteps, hready, hslots, -⟩ :=
    h.handle (e := .disconnected 0) (.disconnected hopened) h.up
  refine .after hsteps (hready.release (i := i) ?_)
  rw [hslots]
  exact move_slot ..

theorem Ready.connect [Nonempty (Fin maxConn)] {i : Fin maxConn} (h : Ready cfg p s)
    (hestablished : s.slots i = .established) : Advertises p s := by
  obtain ⟨q, t, hsteps, hready, hslots, -⟩ := h.handle (.connected hestablished) h.up
  refine .after hsteps (hready.disconnect (i := i) ?_)
  rw [hslots]
  exact move_slot ..

theorem Ready.refuse [Nonempty (Fin maxConn)] {i : Fin maxConn} (h : Ready cfg p s)
    (hrefused : s.slots i = .refused) : Advertises p s := by
  obtain ⟨q, t, hsteps, hready, hslots, -⟩ :=
    h.handle (e := .connected 1) (.refused hrefused (by decide)) h.up
  refine .after hsteps (hready.release (i := i) ?_)
  rw [hslots]
  exact move_slot ..

/-- A connection object in use is led through what is left of its life. -/
theorem Ready.slot [Nonempty (Fin maxConn)] {i : Fin maxConn} (h : Ready cfg p s)
    (hslot : s.slots i ≠ .free) : Advertises p s := by
  cases hi : s.slots i with
  | free => exact absurd hi hslot
  | advertising => exact ⟨p, s, .refl, i, hi⟩
  | established => exact h.connect hi
  | refused => exact h.refuse hi
  | opened => exact h.disconnect hi
  | ended => exact h.release hi

theorem Ready.advertises [Nonempty (Fin maxConn)] (h : Ready cfg p s) (hlive : Live s) :
    Advertises p s := by
  by_cases hslot : ∃ i, s.slots i ≠ .free
  · obtain ⟨i, hi⟩ := hslot
    exact h.slot hi
  · obtain ⟨i⟩ := ‹Nonempty (Fin maxConn)›
    have hfree : s.slots i = .free := by
      by_contra hi
      exact hslot ⟨i, hi⟩
    rcases hlive with hused | hrec | hqueued | hstarting | howed
    · exact absurd hused hslot
    · exact h.recycle hrec hfree
    · exact h.start hqueued hfree
    · rw [h.starting] at hstarting
      cases hstarting
    · rw [h.owed] at howed
      cases howed

/-! ## Again and again -/

theorem silent_of_not_live (hup : s.bt = .up) (h : ¬ Live s) : Silent s := by
  simp only [Live, not_or, not_exists, not_not, Nat.not_lt, Nat.le_zero,
    Bool.not_eq_true] at h
  obtain ⟨hslots, hrec, hqueued, hstarting, howed⟩ := h
  exact ⟨hup, hslots, hqueued, hrec, hstarting, howed⟩

theorem advertises_iff_live [Nonempty (Fin maxConn)]
    (h : TeamSteps (stack maxConn) (server cfg, boot) (p, s)) (hup : s.bt = .up) :
    Advertises p s ↔ Live s := by
  constructor
  · intro hadv
    by_contra hlive
    obtain ⟨q, t, hsteps, i, hi⟩ := hadv
    have hsilent : Silent t := (silent_of_not_live hup hlive).steps h hsteps
    rw [hsilent.slots] at hi
    cases hi
  · intro hlive
    obtain ⟨q, t, hsteps, hready, ht⟩ := comes_ready h hup hlive
    exact .after hsteps (hready.advertises ht)

/-- **Advertising again.** From any point with Bluetooth up, the server can come to advertise
exactly if something is left that can make it; and only a failed start leaves nothing. -/
theorem advertises_again [Nonempty (Fin maxConn)]
    (h : TeamSteps (stack maxConn) (server cfg, boot) (p, s)) (hup : s.bt = .up) :
    (Advertises p s ↔ Live s) ∧ (s.failed = false → Live s) := by
  refine ⟨advertises_iff_live h hup, fun hok => ?_⟩
  have hserved : Served s := (inv_reached h).served hup
  exact hserved.live hok

/-- Right after `ready`, and after a start that failed. -/
theorem advertises_again_startUp :
    Advertises (rota (reply 0) [(.main, 10), (.host, 2)] (server bluetoothOnly, boot)).1
        (rota (reply 0) [(.main, 10), (.host, 2)] (server bluetoothOnly, boot)).2 ∧
      ¬ Advertises (rota (reply (-5)) startUp (server bluetoothOnly, boot)).1
        (rota (reply (-5)) startUp (server bluetoothOnly, boot)).2 := by
  constructor
  · have hready := advertises_again (rota_steps (reply_follows 0) [(.main, 10), (.host, 2)]
      (server bluetoothOnly, boot)) rfl
    exact hready.1.2 (hready.2 rfl)
  · intro hadv
    have hlive := (advertises_again (startUp_steps (-5)) rfl).1.1 hadv
    rcases hlive with ⟨i, hi⟩ | hrec | hqueued | hstarting | howed
    · exact hi rfl
    · exact absurd hrec (by decide)
    · cases hqueued
    · cases hstarting
    · cases howed

end NrfProjects.SmpServer
