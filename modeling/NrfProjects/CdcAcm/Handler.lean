import NrfProjects.CdcAcm.Main

/-! # One round of the echo, and what it starts from

Between two rounds of the handler the flow control is consistent and every byte that was read is
accounted for; each half of a round keeps both. -/

namespace NrfProjects.CdcAcm
set_option autoImplicit false
open Interaction Containers

def Fill.sent (f : Fill) : List UInt8 := f.offered.take f.accepted

def Fill.lost (f : Fill) : List UInt8 := f.offered.drop f.accepted

/-- What the fills have taken from the ring: what was sent, each time with what was lost after it. -/
def drained (fills : List Fill) : List UInt8 := fills.flatMap fun f => f.sent ++ f.lost

structure FlowOk (e : Echo) : Prop where
  throttled : e.rxThrottled = true ↔ e.rxIrq = false
  sending : e.ring.contents ≠ [] → e.txIrq = true
  full : e.rxThrottled = true → e.ring.contents.length = RING_BUF_SIZE

structure Recorded (e : Echo) : Prop where
  received : e.received = drained e.fills ++ e.ring.contents
  chunk : ∀ f ∈ e.fills, f.offered.length ≤ bufferSize

/-- The handler's invariant between two rounds. -/
structure Settled (e : Echo) : Prop extends FlowOk e, Recorded e

/-- A `put` finds space for all it is given, and nothing received is dropped. -/
def echoWatch : Watch Call Echo where
  atLoop := Settled
  atCall
    | .ringBufPut data, e => data.length ≤ e.ring.space
    | .logErr (.dropReceived _), _ => False
    | _, _ => True

variable {e : Echo}

/-! ## What keeps the flow control -/

theorem FlowOk.receiving (h : FlowOk e) (hthr : e.rxThrottled = false) : e.rxIrq = true := by
  have hiff := h.throttled
  rw [hthr] at hiff
  simpa using hiff

theorem FlowOk.throttle (h : FlowOk e) (hfull : e.ring.contents.length = RING_BUF_SIZE) :
    FlowOk { e with rxIrq := false, rxThrottled := true } :=
  ⟨⟨fun _ => rfl, fun _ => rfl⟩, h.sending, fun _ => hfull⟩

/-- With `data` in the ring, only the transmit interrupt may still be missing. -/
theorem FlowOk.put {data : List UInt8} {tx : Bool} (h : FlowOk e) (hthr : e.rxThrottled = false)
    (hfits : data.length ≤ e.ring.space) (hsome : data ≠ [] → tx = true)
    (hnone : data = [] → tx = e.txIrq) :
    FlowOk { e with ring := e.ring.put data, txIrq := tx } := by
  have hput := RingBuf.contents_put hfits
  refine ⟨h.throttled, fun hne => ?_, fun hthr' => ?_⟩
  · by_cases hdata : data = []
    · have hne' : e.ring.contents ++ data ≠ [] := hput ▸ hne
      rw [hdata, List.append_nil] at hne'
      exact (hnone hdata).trans (h.sending hne')
    · exact hsome hdata
  · rw [hthr] at hthr'
    exact absurd hthr' (by decide)

theorem rest_eq_nil {ring : RingBuf UInt8 RING_BUF_SIZE} (n : ℕ) (h : ring.contents = []) :
    (ring.rest n).contents = [] := by
  have hsplit := ring.get_append_rest n
  rw [h, List.append_eq_nil_iff] at hsplit
  exact hsplit.2

/-- An empty ring is not throttled, and need not be sent. -/
theorem FlowOk.emptied (h : FlowOk e) (hnil : e.ring.contents = []) :
    FlowOk { e with ring := e.ring.rest bufferSize, txIrq := false } := by
  refine ⟨h.throttled, fun hne => absurd (rest_eq_nil _ hnil) hne, fun hthr => ?_⟩
  have hfull := h.full hthr
  rw [hnil] at hfull
  exact absurd hfull (by decide)

/-- Once some of the ring has been taken out, reception goes on. -/
theorem FlowOk.taken {rest : RingBuf UInt8 RING_BUF_SIZE} {fills : List Fill} (h : FlowOk e)
    (hne : e.ring.contents ≠ []) :
    FlowOk { e with ring := rest, rxThrottled := false, rxIrq := true, fills := fills } :=
  ⟨by simp, fun _ => h.sending hne, fun hthr => by cases hthr⟩

/-- `data` has been read and is not in the ring yet. -/
structure Reading (e : Echo) (data : List UInt8) : Prop extends FlowOk e where
  unthrottled : e.rxThrottled = false
  fits : data.length ≤ e.ring.space
  received : e.received = drained e.fills ++ e.ring.contents ++ data
  chunk : ∀ f ∈ e.fills, f.offered.length ≤ bufferSize

theorem store_spec {data : List UInt8} (h : Reading e data) :
    Safe echoDriver echoWatch (store data.length data) e fun _ u => Settled u := by
  have hput := RingBuf.contents_put h.fits
  have hstored := RingBuf.stored_of_fits h.fits
  have hsettled : ∀ tx : Bool, (data ≠ [] → tx = true) → (data = [] → tx = e.txIrq) →
      Settled { e with ring := e.ring.put data, txIrq := tx } := by
    intro tx hsome hnone
    refine ⟨h.toFlowOk.put h.unthrottled h.fits hsome hnone, ⟨?_, h.chunk⟩⟩
    show e.received = drained e.fills ++ (e.ring.put data).contents
    rw [hput, h.received, List.append_assoc]
  unfold store
  rw [Int.toNat_natCast, List.take_length, safe_bind, safe_lift]
  refine ⟨h.fits, ?_⟩
  rintro n u ⟨rfl, rfl⟩
  simp only [hstored, Int.lt_irrefl, if_false]
  by_cases hdata : data = []
  · simpa [hdata] using hsettled e.txIrq (fun hne => absurd hdata hne) fun _ => rfl
  · have hlen : data.length ≠ 0 := fun h0 => hdata (List.length_eq_zero_iff.mp h0)
    simp only [ne_eq, hlen, not_false_eq_true, if_true, safe_lift]
    refine ⟨trivial, ?_⟩
    rintro _ u rfl
    exact hsettled true (fun _ => rfl) fun hnil => absurd hnil hdata

theorem receive_spec (h : Settled e) :
    Safe echoDriver echoWatch receive e fun _ u => Settled u := by
  unfold receive
  rw [safe_bind, safe_lift]
  refine ⟨trivial, ?_⟩
  rintro _ u ⟨rfl, rfl⟩
  cases hthr : u.rxThrottled with
  | true => simpa using h
  | false =>
    simp only [Bool.false_eq_true, if_false, safe_bind, safe_lift]
    refine ⟨trivial, ?_⟩
    rintro ready v rfl
    cases ready with
    | false => simpa using h
    | true =>
      simp only [if_true, safe_bind, safe_lift]
      refine ⟨trivial, ?_⟩
      rintro _ w ⟨rfl, rfl⟩
      by_cases hlen : min w.ring.space bufferSize = 0
      · -- the ring is full
        have hfull : w.ring.contents.length = RING_BUF_SIZE := by
          rw [← RingBuf.space_eq_zero]
          have : bufferSize = 64 := rfl
          omega
        simp only [if_pos hlen, safe_bind, safe_lift, safe_pure]
        refine ⟨trivial, ?_⟩
        rintro _ x rfl
        refine ⟨trivial, ?_⟩
        rintro _ y rfl
        exact ⟨h.toFlowOk.throttle hfull, ⟨h.received, h.chunk⟩⟩
      · simp only [if_neg hlen, safe_bind, safe_lift]
        refine ⟨trivial, ?_⟩
        rintro ⟨rc, buffer⟩ x hx
        rcases hx with ⟨hrc, hnil, rfl⟩ | ⟨hrc, hfits, rfl⟩
        · -- the read failed
          have hreading : Reading x [] :=
            { h.toFlowOk with
              unthrottled := hthr
              fits := Nat.zero_le _
              received := by rw [List.append_nil]; exact h.received
              chunk := h.chunk }
          simp only [if_pos hrc, safe_bind, safe_lift, safe_pure]
          refine ⟨trivial, ?_⟩
          rintro _ y rfl
          rw [show buffer = [] from hnil]
          exact store_spec hreading
        · have hreading : Reading { w with received := w.received ++ buffer } buffer :=
            { h.toFlowOk with
              unthrottled := hthr
              fits := by
                have : buffer.length ≤ min w.ring.space bufferSize := hfits
                show buffer.length ≤ w.ring.space
                omega
              received := by rw [h.received]
              chunk := h.chunk }
          have hpos : ¬ rc < 0 := by
            have : rc = buffer.length := hrc
            omega
          simp only [if_neg hpos, safe_bind, safe_pure]
          rw [show rc = buffer.length from hrc]
          exact store_spec hreading

/-! ## The transmit half -/

/-- `data` has been taken from the ring and is not offered to the driver yet. -/
structure Sending (e : Echo) (data : List UInt8) : Prop where
  throttled : e.rxThrottled = true ↔ e.rxIrq = false
  sending : e.ring.contents ≠ [] → e.txIrq = true
  received : e.received = drained e.fills ++ data ++ e.ring.contents
  chunk : ∀ f ∈ e.fills, f.offered.length ≤ bufferSize
  length_le : data.length ≤ bufferSize

theorem drained_snoc (fills : List Fill) (f : Fill) :
    drained (fills ++ [f]) = drained fills ++ f.offered := by
  simp only [drained, List.flatMap_append, List.flatMap_singleton, Fill.sent, Fill.lost,
    List.take_append_drop]

/-- Once reception is no longer throttled, the fill settles the round. -/
theorem send_spec {data : List UInt8} (h : Sending e data) (hthr : e.rxThrottled = false) :
    Safe echoDriver echoWatch (send data) e fun _ u => Settled u := by
  have hsettled : ∀ f : Fill, f.offered = data → Settled { e with fills := e.fills ++ [f] } := by
    intro f hf
    refine ⟨⟨h.throttled, h.sending, fun htrue => ?_⟩, ⟨?_, fun g hg => ?_⟩⟩
    · rw [hthr] at htrue
      exact absurd htrue (by decide)
    · show e.received = drained (e.fills ++ [f]) ++ e.ring.contents
      rw [drained_snoc, hf, h.received]
    · rcases List.mem_append.mp hg with hg | hg
      · exact h.chunk g hg
      · rw [List.mem_singleton.mp hg, hf]
        exact h.length_le
  unfold send
  rw [safe_bind, safe_lift]
  refine ⟨trivial, ?_⟩
  rintro n u ⟨f, hf, -, rfl⟩
  by_cases hn : n < data.length
  · simp only [if_pos hn, safe_lift]
    refine ⟨trivial, ?_⟩
    rintro _ v rfl
    exact hsettled f hf
  · simp only [if_neg hn, safe_pure]
    exact hsettled f hf

theorem transmit_spec (h : Settled e) :
    Safe echoDriver echoWatch transmit e fun _ u => Settled u := by
  unfold transmit
  rw [safe_bind, safe_lift]
  refine ⟨trivial, ?_⟩
  rintro ready u rfl
  cases ready with
  | false => simpa using h
  | true =>
    simp only [if_true, safe_bind, safe_lift]
    refine ⟨trivial, ?_⟩
    rintro data v ⟨rfl, rfl⟩
    have hsplit := u.ring.get_append_rest bufferSize
    have hzero : (u.ring.get bufferSize).length = 0 ↔ u.ring.contents = [] := by
      rw [List.length_eq_zero_iff]
      exact RingBuf.get_eq_nil (by decide)
    by_cases hempty : (u.ring.get bufferSize).length = 0
    · have hnil := hzero.mp hempty
      simp only [if_pos hempty, safe_bind, safe_lift, safe_pure]
      refine ⟨trivial, ?_⟩
      rintro _ v rfl
      refine ⟨h.toFlowOk.emptied hnil, ⟨?_, h.chunk⟩⟩
      show u.received = drained u.fills ++ (u.ring.rest bufferSize).contents
      rw [rest_eq_nil _ hnil, h.received, hnil]
    · have hsending : ∀ rx : Bool, ∀ thr : Bool, (thr = true ↔ rx = false) →
          Sending { u with ring := u.ring.rest bufferSize, rxThrottled := thr, rxIrq := rx }
            (u.ring.get bufferSize) := by
        intro rx thr hrx
        refine ⟨hrx, fun _ => h.sending fun hnil => hempty (hzero.mpr hnil), ?_, h.chunk,
          u.ring.length_get_le _⟩
        show u.received = drained u.fills ++ u.ring.get bufferSize ++
          (u.ring.rest bufferSize).contents
        rw [List.append_assoc, hsplit, h.received]
      simp only [if_neg hempty, safe_bind, safe_lift]
      refine ⟨trivial, ?_⟩
      rintro _ v ⟨rfl, rfl⟩
      cases hthr : u.rxThrottled with
      | true =>
        simp only [if_true, safe_bind, safe_lift]
        refine ⟨trivial, ?_⟩
        rintro _ v rfl
        refine ⟨trivial, ?_⟩
        rintro _ v rfl
        exact send_spec (hsending true false (by decide)) rfl
      | false =>
        have hirq : false = true ↔ u.rxIrq = false := hthr ▸ h.throttled
        simp only [Bool.false_eq_true, if_false]
        exact send_spec (hsending u.rxIrq false hirq) rfl

/-! ## The handler, and what it starts from -/

theorem round_spec (h : Settled e) : Safe echoDriver echoWatch round e fun _ u => Settled u := by
  unfold round
  simp only [safe_bind, safe_lift]
  refine ⟨trivial, ?_⟩
  rintro update u rfl
  cases update with
  | false => simpa using h
  | true =>
    simp only [if_true, safe_bind, safe_lift]
    refine ⟨trivial, ?_⟩
    rintro pending v rfl
    cases pending with
    | false => simpa using h
    | true =>
      simp only [if_true, safe_bind]
      refine (receive_spec h).imp fun continues w hw => ?_
      cases continues with
      | true => simpa using hw
      | false =>
        simp only [Bool.false_eq_true, if_false, safe_bind]
        refine (transmit_spec hw).imp fun _ x hx => ?_
        rw [safe_pure]
        exact hx

theorem interruptHandler_spec (h : Settled e) :
    Safe echoDriver echoWatch interruptHandler e fun _ u => Settled u := by
  refine Safe.repeatM_quiet (fun _ u => Settled u) h (fun _ _ hu => hu) fun _ u hu => ?_
  refine (round_spec hu).imp fun x v hv => ?_
  cases x with
  | inl _ => exact hv
  | inr _ => exact hv

theorem interrupts_spec (h : Settled e) :
    Safe echoDriver echoWatch interrupts e fun _ _ => False := by
  refine Safe.repeatM_quiet (fun _ u => Settled u) h (fun _ _ hu => hu) fun _ u hu => ?_
  rw [safe_bind, safe_lift]
  refine ⟨trivial, ?_⟩
  rintro _ v ⟨-, rfl⟩
  rw [safe_bind]
  refine (interruptHandler_spec hu).imp fun _ w hw => ?_
  rw [safe_pure]
  exact hw

/-- After a reset: interrupts are off and nothing has been read. -/
structure PowerOn (e : Echo) : Prop where
  unthrottled : e.rxThrottled = false
  rxIrq : e.rxIrq = false
  txIrq : e.txIrq = false
  callback : e.callback = false
  received : e.received = []
  fills : e.fills = []

/-- Where the first run of the handler starts. -/
structure Started (e : Echo) : Prop where
  empty : e.ring.contents = []
  unthrottled : e.rxThrottled = false
  rxIrq : e.rxIrq = true
  txIrq : e.txIrq = false
  received : e.received = []
  fills : e.fills = []

theorem Started.settled (h : Started e) : Settled e := by
  refine ⟨⟨?_, fun hne => absurd h.empty hne, fun hthr => ?_⟩, ⟨?_, ?_⟩⟩
  · rw [h.unthrottled, h.rxIrq]
    decide
  · rw [h.unthrottled] at hthr
    exact absurd hthr (by decide)
  · rw [h.received, h.fills, h.empty]
    rfl
  · rw [h.fills]
    simp

theorem waitForDtr_spec : Safe echoDriver .none waitForDtr e fun _ u => u = e := by
  refine Safe.repeatM_quiet (fun _ u => u = e) rfl (fun _ _ _ => trivial) ?_
  rintro _ u rfl
  rw [safe_bind, safe_lift]
  refine ⟨trivial, ?_⟩
  rintro dtr v rfl
  cases dtr <;> simp

/-- `main` that has installed the handler has set everything up for it. -/
theorem main_spec (h : PowerOn e) :
    Safe echoDriver .none main e fun _ u => u.callback = true → Started u := by
  have hoff : e.callback = true → Started e := by
    intro hon
    rw [h.callback] at hon
    exact absurd hon (by decide)
  unfold main
  rw [safe_bind, safe_lift]
  refine ⟨trivial, ?_⟩
  rintro ready u rfl
  cases ready with
  | false =>
    simp only [Bool.false_eq_true, if_false, safe_bind, safe_lift, safe_pure]
    refine ⟨trivial, ?_⟩
    rintro _ v rfl
    exact hoff
  | true =>
    simp only [if_true, safe_bind, safe_lift]
    refine ⟨trivial, ?_⟩
    rintro ret v rfl
    by_cases hret : ret = 0
    · simp only [hret, ne_eq, not_true_eq_false, if_false, safe_bind, safe_lift, safe_pure]
      refine ⟨trivial, ?_⟩
      rintro _ w rfl
      refine waitForDtr_spec.imp ?_
      rintro _ w rfl
      refine ⟨trivial, ?_⟩
      rintro _ w rfl
      refine ⟨trivial, ?_⟩
      rintro _ w rfl
      refine ⟨trivial, ?_⟩
      rintro _ w rfl
      refine ⟨trivial, ?_⟩
      rintro _ w rfl _
      exact ⟨rfl, h.unthrottled, rfl, h.txIrq, h.received, h.fills⟩
    · simp only [ne_eq, hret, not_false_eq_true, if_true, safe_bind, safe_lift, safe_pure]
      refine ⟨trivial, ?_⟩
      rintro _ w rfl
      exact hoff

/-- `s` is where the interrupts find the system once `main` has installed their handler. -/
def SetUp (s : System) : Prop :=
  s.callback = true ∧ ∃ s₀ : System, PowerOn s₀.toEcho ∧ Steps driver (main, s₀) (.ret 0, s)

theorem SetUp.started {s : System} (h : SetUp s) : Started s.toEcho := by
  obtain ⟨hset, s₀, h0, hmain⟩ := h
  exact (main_spec h0).result (hmain.project driver_projects) hset

/-- Where a run of the handler may be, whatever arrives meanwhile. -/
theorem SetUp.meets {s t : System} {q : Prog Call Unit} (hs : SetUp s)
    (h : Steps driver (interrupts, s) (q, t)) :
    Safe echoDriver echoWatch q t.toEcho fun _ _ => False :=
  (interrupts_spec hs.started.settled).steps (h.project driver_projects)

theorem SetUp.settled {s t : System} {q : Prog Call Unit} (hs : SetUp s)
    (h : Steps driver (interrupts, s) (q, t)) (hq : q.AtLoop) : Settled t.toEcho :=
  (hs.meets h).atLoop .refl hq

end NrfProjects.CdcAcm
