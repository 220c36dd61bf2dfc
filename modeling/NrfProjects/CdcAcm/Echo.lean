import NrfProjects.CdcAcm.Handler

/-! # The echo never wedges, and loses only what a fill does not accept -/

namespace NrfProjects.CdcAcm
set_option autoImplicit false
open Interaction Containers

/-! ## Runs of the handler -/

/-- Bytes are there from the beginning. -/
def powerOn (rxFifo : List UInt8) : System where
  ring := .empty
  rxThrottled := false
  rxIrq := false
  txIrq := false
  callback := false
  received := []
  fills := []
  rxFifo := rxFifo

/-- Where `main` leaves a driver that answers. -/
def started (rxFifo : List UInt8) : System := (replay (reply 0) 20 (main, powerOn rxFifo)).2

theorem started_setUp (rxFifo : List UInt8) : SetUp (started rxFifo) := by
  refine ⟨rfl, powerOn rxFifo, ⟨rfl, rfl, rfl, rfl, rfl, rfl⟩, ?_⟩
  exact Steps.of_replay (reply_follows 0) 20 (Prod.ext (by rfl) rfl)

/-- The handler back at its loop, after a round in which the fill accepted nothing of one byte. -/
def afterRound : Prog Call Unit × System := replay (reply 0) 16 (interrupts, started [7])

theorem afterRound_steps :
    Steps driver (interrupts, started [7]) (afterRound.1, afterRound.2) :=
  Steps.of_replay (reply_follows 0) 16 rfl

theorem afterRound_atLoop : afterRound.1.AtLoop := trivial

/-- The transmitter is never ready. -/
def stalled {ρ : Type} : Call ρ → System → Option (ρ × System)
  | .irqTxReady, s => some (false, s)
  | c, s => reply 0 c s

theorem stalled_follows : Script.Follows stalled driver := by
  intro ρ c s r t h
  cases c with
  | irqTxReady =>
    cases h
    exact ⟨s, .refl, rfl, rfl⟩
  | _ => exact ⟨s, .refl, answer_of_reply 0 h⟩

/-- As many bytes as the ring holds have been read, 64 in each round, and the next round has found no
space for more. -/
@[irreducible] def filledUp : Prog Call Unit × System :=
  replay stalled 170 (interrupts, started (List.replicate RING_BUF_SIZE 7))

theorem filledUp_steps : Steps driver (interrupts, started (List.replicate RING_BUF_SIZE 7))
    (filledUp.1, filledUp.2) := by
  have hrun := replay_steps stalled_follows 170
    (interrupts, started (List.replicate RING_BUF_SIZE 7))
  unfold filledUp
  generalize replay stalled 170 (interrupts, started (List.replicate RING_BUF_SIZE 7)) = x
    at hrun ⊢
  exact hrun

/-! ## Every run of the handler -/

/-- **Flow control.** Between two rounds reception is throttled exactly while its interrupt is off,
a non-empty ring is being sent, and a throttled one is full; so the echo cannot come to rest. -/
theorem never_wedged {s t : System} {q : Prog Call Unit} (hs : SetUp s)
    (h : Steps driver (interrupts, s) (q, t)) (hq : q.AtLoop) :
    FlowOk t.toEcho ∧ ¬ (t.rxThrottled = true ∧ t.txIrq = false) := by
  have ht := hs.settled h hq
  refine ⟨ht.toFlowOk, ?_⟩
  rintro ⟨hthr, htx⟩
  have hfull := ht.full hthr
  have hne : t.ring.contents ≠ [] := by
    intro hnil
    rw [hnil] at hfull
    exact absurd hfull (by decide)
  rw [ht.sending hne] at htx
  exact absurd htx (by decide)

/-- Reception is throttled, and the ring will be sent. -/
theorem never_wedged_filledUp : filledUp.2.rxThrottled = true ∧ FlowOk filledUp.2.toEcho ∧
    ¬ (filledUp.2.rxThrottled = true ∧ filledUp.2.txIrq = false) := by
  have hloop : filledUp.1.AtLoop := by decide +kernel
  have hthrottled : filledUp.2.rxThrottled = true := by decide +kernel
  exact ⟨hthrottled, never_wedged (started_setUp _) filledUp_steps hloop⟩

/-- **Nothing is dropped on reception**, and between two rounds what was read is what was drained,
each accepted part with the lost one after it, and then the ring. -/
theorem received_accounted {s t : System} {q : Prog Call Unit} (hs : SetUp s)
    (h : Steps driver (interrupts, s) (q, t)) :
    t.ring.contents.length ≤ RING_BUF_SIZE ∧
    (∀ data, q.Calls (.ringBufPut data) → t.ring.stored data = data.length) ∧
    (∀ n, ¬ q.Calls (.logErr (.dropReceived n))) ∧
    (q.AtLoop → t.received = t.fills.flatMap (fun f => f.sent ++ f.lost) ++ t.ring.contents ∧
      ∀ f ∈ t.fills, f.offered.length ≤ bufferSize) := by
  refine ⟨t.ring.length_le, fun data hput => ?_, fun n hdrop => ?_, fun hq => ?_⟩
  · exact RingBuf.stored_of_fits ((hs.meets h).atCall .refl hput)
  · exact (hs.meets h).atCall .refl hdrop
  · have ht := hs.settled h hq
    exact ⟨ht.received, ht.chunk⟩

theorem received_accounted_round : afterRound.2.received =
      afterRound.2.fills.flatMap (fun f => f.sent ++ f.lost) ++ afterRound.2.ring.contents ∧
    ∀ f ∈ afterRound.2.fills, f.offered.length ≤ bufferSize :=
  (received_accounted (started_setUp [7]) afterRound_steps).2.2.2 afterRound_atLoop

/-- All that was accepted back. -/
def echoed (fills : List Fill) : List UInt8 := fills.flatMap Fill.sent

theorem length_drained (fills : List Fill) :
    (drained fills).length = (echoed fills).length + (fills.flatMap Fill.lost).length := by
  induction fills with
  | nil => rfl
  | cons f fills ih =>
    simp only [drained, echoed, List.flatMap_cons, List.length_append] at ih ⊢
    omega

theorem drained_eq_echoed {fills : List Fill} (h : ∀ f ∈ fills, f.accepted = f.offered.length) :
    drained fills = echoed fills := by
  induction fills with
  | nil => rfl
  | cons f fills ih =>
    have hlost : f.lost = [] := by
      rw [Fill.lost, List.drop_eq_nil_iff]
      exact Nat.le_of_eq (h f List.mem_cons_self).symm
    have ih := ih fun g hg => h g (List.mem_cons_of_mem f hg)
    simp only [drained, echoed, List.flatMap_cons, hlost, List.append_nil] at ih ⊢
    rw [ih]

/-- **The echo.** Between two rounds, what was accepted back and then the ring are what was read if
and only if every fill so far accepted all it was offered. -/
theorem lossless_iff {s t : System} {q : Prog Call Unit} (hs : SetUp s)
    (h : Steps driver (interrupts, s) (q, t)) (hq : q.AtLoop) :
    echoed t.fills ++ t.ring.contents = t.received ↔
      ∀ f ∈ t.fills, f.accepted = f.offered.length := by
  have hreceived := (hs.settled h hq).received
  constructor
  · intro heq f hf
    rw [hreceived] at heq
    have hlen := congrArg List.length heq
    rw [List.length_append, List.length_append, length_drained] at hlen
    have hnil : t.fills.flatMap Fill.lost = [] := by
      apply List.eq_nil_of_length_eq_zero
      omega
    have hlost : f.lost = [] := List.flatMap_eq_nil_iff.mp hnil f hf
    rw [Fill.lost, List.drop_eq_nil_iff] at hlost
    have hle := f.le
    omega
  · intro hall
    rw [hreceived, drained_eq_echoed hall]

theorem lossless_iff_round :
    echoed afterRound.2.fills ++ afterRound.2.ring.contents = afterRound.2.received ↔
      ∀ f ∈ afterRound.2.fills, f.accepted = f.offered.length :=
  lossless_iff (started_setUp [7]) afterRound_steps afterRound_atLoop

/-- A byte that was read is gone once a fill does not accept it. -/
theorem byte_lost : ∃ (s t : System) (q : Prog Call Unit), SetUp s ∧
    Steps driver (interrupts, s) (q, t) ∧ q.AtLoop ∧
      t.received = [7] ∧ echoed t.fills ++ t.ring.contents = [] :=
  ⟨started [7], afterRound.2, afterRound.1, started_setUp [7], afterRound_steps, afterRound_atLoop,
    by rfl, by rfl⟩

end NrfProjects.CdcAcm
