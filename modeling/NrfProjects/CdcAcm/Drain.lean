import NrfProjects.CdcAcm.Handler
import NrfProjects.CdcAcm.Line

/-! # The handler returns, and drains what it can

Every round takes something away from `work`: a byte read costs more than it adds to the ring, and a
round that reads nothing empties the ring, throttles or turns the transmit interrupt off. The flow
control is what rules out a round that does nothing. -/

namespace NrfProjects.CdcAcm
set_option autoImplicit false
open Interaction Containers

/-- What is left to do with `n` bytes that are not read. -/
def work (e : Echo) (n : ℕ) : ℕ :=
  4 * n + 2 * e.ring.contents.length + (if e.rxThrottled then 0 else 1) + (if e.txIrq then 1 else 0)

/-- Between two rounds, with less than `m` left to do. -/
structure Under (stalls : Bool) (m : ℕ) (s : Line) : Prop where
  flow : FlowOk s.toEcho
  work : work s.toEcho s.bytes < m
  ready : stalls = false → s.txReady = true

/-- The test of the transmitter will succeed, and there is something to do for it. -/
structure Armed (s : Line) : Prop where
  held : s.held = true
  txIrq : s.txIrq = true
  txReady : s.txReady = true

variable {stalls : Bool} {e : Echo} {n m : ℕ} {s t : Line}

/-! ## What a round takes away -/

theorem work_throttled (hthr : e.rxThrottled = false) :
    work { e with rxIrq := false, rxThrottled := true } n < work e n := by
  simp only [work, hthr, Bool.false_eq_true, if_false, if_true]
  omega

/-- A byte that is read costs more than a byte in the ring. -/
theorem work_read {k : ℕ} (hthr : e.rxThrottled = false) (hk : 0 < k) (hle : k ≤ n) :
    4 * (n - k) + 2 * (e.ring.contents.length + k) + 2 < work e n := by
  simp only [work, hthr, Bool.false_eq_true, if_false]
  omega

theorem work_emptied (hnil : e.ring.contents = []) :
    work { e with ring := e.ring.rest bufferSize, txIrq := false } n + (if e.txIrq then 1 else 0) =
      work e n := by
  simp only [work, rest_eq_nil _ hnil, hnil, Bool.false_eq_true, if_false, Nat.add_zero]

/-- What is taken out makes up for the throttling that ends. -/
theorem work_taken (hempty : (e.ring.get bufferSize).length ≠ 0) :
    work { e with ring := e.ring.rest bufferSize, rxThrottled := false, rxIrq := true } n <
      work e n := by
  have hlength := congrArg List.length (e.ring.get_append_rest bufferSize)
  rw [List.length_append] at hlength
  simp only [work, Bool.false_eq_true, if_false]
  omega

theorem At.under (h : At stalls e n s) (hflow : FlowOk e) (hwork : work e n < m) :
    Under stalls m s := by
  refine ⟨?_, ?_, h.ready⟩
  · rw [h.echo]
    exact hflow
  · rw [h.echo, h.bytes]
    exact hwork

theorem armed_stable : (line stalls).Stable Armed := by
  intro s t hm hs
  cases hm with
  | arrive byte hn => exact ⟨hs.held, hs.txIrq, hs.txReady⟩
  | turn _ hheld =>
    rw [hs.held] at hheld
    cases hheld

/-! ## The receive half -/

theorem store_returns {data : List UInt8} (hs : At stalls e n s) (hflow : FlowOk e)
    (hthr : e.rxThrottled = false) (hdata : data ≠ []) (hfits : data.length ≤ e.ring.space)
    (hwork : 4 * n + 2 * (e.ring.contents.length + data.length) + 2 < m) :
    Returns (line stalls) .none (fun _ t => Under stalls m t) (store data.length data) s := by
  have hlen : data.length ≠ 0 := fun h0 => hdata (List.length_eq_zero_iff.mp h0)
  have hput := RingBuf.contents_put hfits
  unfold store
  rw [Int.toNat_natCast, List.take_length, returns_bind]
  refine hs.call fun stored e' ha u hu => ?_
  obtain ⟨rfl, rfl⟩ := ha
  rw [RingBuf.stored_of_fits hfits]
  simp only [Int.lt_irrefl, if_false, ne_eq, hlen, not_false_eq_true, if_true]
  refine hu.call fun _ e' ha v hv => ?_
  obtain rfl : e' = _ := ha
  apply hv.under (hflow.put hthr hfits (fun _ => rfl) fun hnil => absurd hnil hdata)
  simp only [work, hput, List.length_append, hthr, Bool.false_eq_true, if_false, if_true]
  omega

/-- From the pending test on: bytes are read, reception is throttled, or it is the transmitter that
has something to do. -/
theorem receive_returns (hs : At stalls e n s) (hflow : FlowOk e) (hpoised : Poised s) :
    Returns (line stalls) .none
      (fun b t => Under stalls (work e n) t ∨ b = false ∧ At stalls e n t ∧ Armed t) receive s := by
  have hstable : (line stalls).Stable fun t => At stalls e n t ∧ Poised t := fun t u hm ht =>
    ⟨at_stable t u hm ht.1, poised_stable t u hm ht.2⟩
  unfold receive
  rw [returns_bind]
  refine returns_plain hstable ⟨hs, hpoised⟩ fun t r u ht ha => ?_
  obtain ⟨rfl, rfl⟩ := answer_rxThrottled ha
  obtain ⟨hu, hpoised⟩ := ht
  cases hthr : u.rxThrottled with
  | true =>
    simp only [if_true, returns_pure]
    cases hpoised.pending with
    | inl h =>
      rw [hthr] at h
      exact absurd h.1 (by decide)
    | inr h => exact .inr ⟨trivial, hu, hpoised.held, h.1, h.2⟩
  | false =>
    simp only [Bool.false_eq_true, if_false, returns_bind]
    refine returns_plain hstable ⟨hu, hpoised⟩ fun t r v ht ha => ?_
    obtain ⟨hr, rfl⟩ := answer_irqRxReady ha
    obtain ⟨hv, hpoised⟩ := ht
    cases r with
    | false =>
      simp only [Bool.false_eq_true, if_false, returns_pure]
      cases hpoised.pending with
      | inl h => exact absurd (hr.mpr h.2) (by decide)
      | inr h => exact .inr ⟨trivial, hv, hpoised.held, h.1, h.2⟩
    | true =>
      have hthr' : e.rxThrottled = false := hu.echo ▸ hthr
      simp only [if_true, returns_bind]
      refine returns_plain unread_stable ⟨hv, hr.mp rfl⟩ fun t r w ht ha => ?_
      obtain ⟨ht, hne⟩ := ht
      obtain ⟨rfl, rfl⟩ := answer_ringBufSpaceGet ha
      rw [ht.ring]
      by_cases hlen : min e.ring.space bufferSize = 0
      · -- the ring is full
        have hfull : e.ring.contents.length = RING_BUF_SIZE := by
          rw [← RingBuf.space_eq_zero]
          have : bufferSize = 64 := rfl
          omega
        simp only [if_pos hlen, returns_bind, returns_pure]
        refine ht.call fun _ e' ha w hw => ?_
        obtain rfl : e' = _ := ha
        refine hw.call fun _ e' ha x hx => ?_
        obtain rfl : e' = _ := ha
        exact .inl (hx.under (hflow.throttle hfull) (work_throttled hthr'))
      · simp only [if_neg hlen, returns_bind]
        apply ht.fifoRead (Nat.pos_of_ne_zero hlen) hne
        intro data u hdata hle hn hu
        have hpos : 0 < data.length := List.length_pos_iff.mpr hdata
        have hnonneg : ¬ (data.length : ℤ) < 0 := Int.not_lt.mpr (Int.natCast_nonneg _)
        dsimp only
        rw [if_neg hnonneg, returns_bind]
        have hflow' : FlowOk { e with received := e.received ++ data } :=
          ⟨hflow.throttled, hflow.sending, hflow.full⟩
        have hfits : data.length ≤ e.ring.space := by omega
        have hwork : 4 * (n - data.length) + 2 * (e.ring.contents.length + data.length) + 2 <
            work e n := work_read hthr' hpos hn
        refine (store_returns hu hflow' hthr' hdata hfits hwork).imp fun _ x hx => ?_
        rw [returns_pure]
        exact .inl hx

/-! ## The transmit half -/

theorem send_returns {data : List UInt8} (hs : At stalls e n s)
    (hflow : ∀ fills, FlowOk { e with fills := fills }) (hwork : work e n < m) :
    Returns (line stalls) .none (fun _ t => Under stalls m t) (send data) s := by
  unfold send
  rw [returns_bind]
  refine hs.call fun sent e' ha u hu => ?_
  obtain ⟨f, -, -, rfl⟩ := ha
  have hunder : Under stalls m u := hu.under (hflow _) hwork
  split
  · refine hu.call fun _ e' ha v hv => ?_
    obtain rfl : e' = _ := ha
    exact hv.under (hflow _) hwork
  · exact returns_pure.mpr hunder

/-- It never adds to what is left to do, and takes from it if it finds the transmitter ready. -/
theorem transmit_returns (hs : At stalls e n s) (hflow : FlowOk e)
    (hgo : work e n < m ∨ work e n = m ∧ Armed s) :
    Returns (line stalls) .none (fun _ t => Under stalls m t) transmit s := by
  have hstable : (line stalls).Stable fun t =>
      At stalls e n t ∧ (work e n < m ∨ work e n = m ∧ Armed t) := fun t u hm ht =>
    ⟨at_stable t u hm ht.1, ht.2.imp_right fun h => ⟨h.1, armed_stable t u hm h.2⟩⟩
  unfold transmit
  rw [returns_bind]
  refine returns_plain hstable ⟨hs, hgo⟩ fun t r u ht ha => ?_
  obtain ⟨hready, rfl⟩ := answer_irqTxReady ha
  obtain ⟨ht, hgo⟩ := ht
  have hu : At stalls e n { t with held := false } := ⟨ht.echo, ht.bytes, ht.ready⟩
  cases r with
  | false =>
    simp only [Bool.false_eq_true, if_false, returns_pure]
    cases hgo with
    | inl hless => exact hu.under hflow hless
    | inr harmed =>
      rw [harmed.2.txReady] at hready
      cases hready
  | true =>
    -- from here on the transmit interrupt is on, or something has been done already
    have hgo' : work e n < m ∨ work e n = m ∧ e.txIrq = true :=
      hgo.imp_right fun h => ⟨h.1, ht.echo ▸ h.2.txIrq⟩
    simp only [if_true, returns_bind]
    refine hu.call fun data e' ha u hu => ?_
    obtain ⟨rfl, rfl⟩ := ha
    by_cases hempty : (e.ring.get bufferSize).length = 0
    · have hnil : e.ring.contents = [] :=
        (RingBuf.get_eq_nil (by decide)).mp (List.length_eq_zero_iff.mp hempty)
      simp only [if_pos hempty, returns_bind, returns_pure]
      refine hu.call fun _ e' ha v hv => ?_
      obtain rfl : e' = _ := ha
      have hwork := work_emptied (n := n) hnil
      have hless : work { e with ring := e.ring.rest bufferSize, txIrq := false } n < m := by
        cases hgo' with
        | inl hgo => omega
        | inr hgo =>
          rw [hgo.2, if_pos rfl] at hwork
          omega
      exact hv.under (hflow.emptied hnil) hless
    · have hne : e.ring.contents ≠ [] := fun hnil =>
        hempty (by rw [(RingBuf.get_eq_nil (by decide)).mpr hnil, List.length_nil])
      let rest := e.ring.rest bufferSize
      let on : Echo := { e with ring := rest, rxThrottled := false, rxIrq := true }
      have hle : work e n ≤ m := hgo.elim Nat.le_of_lt fun h => Nat.le_of_eq h.1
      have hless : work on n < m := Nat.lt_of_lt_of_le (work_taken hempty) hle
      have hsend : ∀ u, At stalls on n u → Returns (line stalls) .none
          (fun _ t => Under stalls m t) (send (e.ring.get bufferSize)) u := fun u hu =>
        send_returns hu (fun _ => hflow.taken hne) hless
      simp only [if_neg hempty, returns_bind]
      refine hu.call fun thr e' ha v hv => ?_
      obtain ⟨rfl, rfl⟩ := ha
      cases hthr : e.rxThrottled with
      | true =>
        simp only [if_true, returns_bind]
        refine hv.call fun _ e' ha w hw => ?_
        obtain rfl : e' = _ := ha
        refine hw.call fun _ e' ha x hx => ?_
        obtain rfl : e' = _ := ha
        exact hsend x hx
      | false =>
        have hrx : e.rxIrq = true := hflow.receiving hthr
        have hon : on = { e with ring := rest } := by
          simp only [on, hthr, hrx]
        simp only [Bool.false_eq_true, if_false]
        exact hsend v (hon ▸ hv)

/-! ## The handler -/

/-- Nothing is left to do. -/
structure Drained (s : Line) : Prop where
  read : s.rxFifo = []
  sent : s.ring.contents = []
  txIrq : s.txIrq = false
  rxIrq : s.rxIrq = true
  unthrottled : s.rxThrottled = false

/-- Nothing is pending while the transmitter is ready. -/
theorem drained_of_idle (hflow : FlowOk s.toEcho) (hready : s.txReady = true)
    (hidle : ¬ s.Pending) : Drained s := by
  have htx : s.txIrq = false := Bool.eq_false_iff.mpr fun htx => hidle (.inr ⟨htx, hready⟩)
  have hsent : s.ring.contents = [] := by
    apply Decidable.byContradiction
    intro hne
    rw [hflow.sending hne] at htx
    cases htx
  have hthr : s.rxThrottled = false := by
    apply Bool.eq_false_iff.mpr
    intro hthr
    have hfull := hflow.full hthr
    rw [hsent] at hfull
    exact absurd hfull (by decide)
  have hrx : s.rxIrq = true := hflow.receiving hthr
  refine ⟨?_, hsent, htx, hrx, hthr⟩
  apply Decidable.byContradiction
  intro hne
  exact hidle (.inl ⟨hrx, hne⟩)

theorem round_returns (hs : At stalls e n s) (hflow : FlowOk e) :
    Returns (line stalls) .none (fun x t => x.elim (fun _ => Under stalls (work e n) t)
      fun _ => stalls = false → Drained t) round s := by
  unfold round
  rw [returns_bind]
  refine returns_plain at_stable hs fun t update u ht ha => ?_
  obtain ⟨rfl, rfl⟩ := answer_irqUpdate ha
  have hu : At stalls e n { t with held := false } := ⟨ht.echo, ht.bytes, ht.ready⟩
  simp only [if_true, returns_bind]
  refine returns_plain at_stable hu fun t pending u ht ha => ?_
  obtain ⟨hpending, rfl⟩ := answer_irqIsPending ha
  have hu : At stalls e n { t with held := true } := ⟨ht.echo, ht.bytes, ht.ready⟩
  have hflow' : FlowOk t.toEcho := by
    rw [ht.echo]
    exact hflow
  cases pending with
  | false =>
    simp only [Bool.false_eq_true, if_false, returns_pure]
    intro hstalls
    have hdrained := drained_of_idle hflow' (ht.ready hstalls) fun h => by simpa using hpending.mpr h
    exact ⟨hdrained.read, hdrained.sent, hdrained.txIrq, hdrained.rxIrq, hdrained.unthrottled⟩
  | true =>
    have hpoised : Poised { t with held := true } := by
      refine ⟨rfl, (hpending.mp rfl).imp_left fun h => ⟨?_, h.2⟩⟩
      apply Bool.eq_false_iff.mpr
      intro hthr
      rw [hflow'.throttled.mp hthr] at h
      exact absurd h.1 (by decide)
    simp only [if_true, returns_bind]
    refine (receive_returns hu hflow hpoised).imp fun continues v hv => ?_
    have htransmit : Returns (line stalls) .none (fun _ t => Under stalls (work e n) t) transmit v := by
      cases hv with
      | inl hv => exact transmit_returns ⟨rfl, rfl, hv.ready⟩ hv.flow (.inl hv.work)
      | inr hv => exact transmit_returns hv.2.1 hflow (.inr ⟨rfl, hv.2.2⟩)
    cases continues with
    | true =>
      cases hv with
      | inl hv => exact returns_pure.mpr hv
      | inr hv => exact absurd hv.1 (by decide)
    | false =>
      simp only [Bool.false_eq_true, if_false, returns_bind]
      exact htransmit.imp fun _ w hw => returns_pure.mpr hw

theorem interruptHandler_drains (hs : FlowOk s.toEcho)
    (hready : stalls = false → s.txReady = true) :
    Returns (line stalls) .none (fun _ t => stalls = false → Drained t) interruptHandler s := by
  let left : Unit × Line → ℕ := fun x => work x.2.toEcho x.2.bytes
  apply Returns.repeatM (fun _ t => FlowOk t.toEcho ∧ (stalls = false → t.txReady = true))
    (measure left).wf ⟨hs, hready⟩
  intro _ t u ht hm
  obtain ⟨hflow, hready⟩ := ht
  have hu : At stalls t.toEcho t.bytes u := at_stable.moves hm ⟨rfl, rfl, hready⟩
  refine ⟨trivial, (round_returns hu hflow).imp fun x v hx => ?_⟩
  cases x with
  | inl _ => exact ⟨⟨hx.flow, hx.ready⟩, hx.work⟩
  | inr _ => exact hx

/-- **Every run of the handler ends**: it is never stuck, takes no infinite number of steps, and at
the moment it returns nothing is left to do if the transmitter is always ready. -/
theorem handler_ends {s : Line} (stalls : Bool) (hs : FlowOk s.toEcho)
    (hready : stalls = false → s.txReady = true) :
    Returns (line stalls) .none (fun _ t => stalls = false → Drained t) interruptHandler s ∧
      (∀ x : ℕ → Prog Call Unit × Line, x 0 = (interruptHandler, s) →
        ¬ ∀ n, Advance (line stalls) (x n) (x (n + 1))) ∧
      ∀ t, Steps (line stalls) (interruptHandler, s) (.ret (), t) →
        ∃ u, (stalls = false → Drained u) ∧ (line stalls).Moves u t :=
  have h := interruptHandler_drains hs hready
  ⟨h, h.not_forever, fun _ hsteps => h.result hsteps⟩

/-- A received byte, three to come, and a transmitter that is ready. -/
def busyLine : Line where
  ring := .empty
  rxThrottled := false
  rxIrq := true
  txIrq := false
  callback := true
  received := []
  fills := []
  rxFifo := [7]
  txReady := true
  toCome := 3
  held := false

theorem handler_ends_busy :
    Returns (line false) .none (fun _ t => false = false → Drained t) interruptHandler busyLine :=
  (handler_ends false ⟨by decide, fun h => absurd rfl h, fun h => by cases h⟩ fun _ => rfl).1

end NrfProjects.CdcAcm
