import NrfProjects.CdcAcm.Main
import NrfProjects.Interaction.Returns

/-! # The handler beside a line that behaves

`line` is the driver under what its documentation promises: the pending test speaks of both
directions, a read of waiting bytes returns some, and the transmitter keeps still between the tests
of one round. A finite number of bytes is still to come. -/

namespace NrfProjects.CdcAcm
set_option autoImplicit false
open Interaction Containers

structure Line extends System where
  txReady : Bool
  /-- Bytes that will still arrive. -/
  toCome : ℕ
  /-- The pending test of this round has been made, and not its test of the transmitter. -/
  held : Bool

def Line.Pending (s : Line) : Prop :=
  s.rxIrq = true ∧ s.rxFifo ≠ [] ∨ s.txIrq = true ∧ s.txReady = true

/-- What a call may answer. -/
def Promised {ρ : Type} : Call ρ → Line → ρ → Prop
  | .irqUpdate, _, r => r = true
  | .irqIsPending, s, r => r = true ↔ s.Pending
  | .irqRxReady, s, r => r = true ↔ s.rxFifo ≠ []
  | .irqTxReady, s, r => r = s.txReady
  | .fifoRead len, s, r => 0 < len → s.rxFifo ≠ [] → 1 ≤ r.1
  | _, _, _ => True

def held {ρ : Type} : Call ρ → Bool → Bool
  | .irqIsPending, _ => true
  | .irqTxReady, _ => false
  | .irqUpdate, _ => false
  | _, b => b

/-- A byte arrives, or a transmitter that `stalls` becomes ready or stops being so. -/
inductive Line.Move (stalls : Bool) : Line → Line → Prop
  | arrive {s : Line} {n : ℕ} (byte : UInt8) (hn : s.toCome = n + 1) :
      Move stalls s { s with rxFifo := s.rxFifo ++ [byte], toCome := n }
  | turn {s : Line} (hstalls : stalls = true) (hheld : s.held = false) :
      Move stalls s { s with txReady := !s.txReady }

def line (stalls : Bool) : Device Call Line where
  answer c s r t := driver.answer c s.toSystem r t.toSystem ∧ Promised c s r ∧
    t.txReady = s.txReady ∧ t.toCome = s.toCome ∧ t.held = held c s.held
  move := Line.Move stalls

/-- The bytes that were received and not read, or are still to come. -/
def Line.bytes (s : Line) : ℕ := s.rxFifo.length + s.toCome

/-- The line stands where the echo is `e` and `n` bytes are not read. -/
structure At (stalls : Bool) (e : Echo) (n : ℕ) (s : Line) : Prop where
  echo : s.toEcho = e
  bytes : s.bytes = n
  ready : stalls = false → s.txReady = true

variable {stalls : Bool} {e : Echo} {n : ℕ} {s t : Line}

theorem At.ring (h : At stalls e n s) : s.ring = e.ring := congrArg Echo.ring h.echo

theorem at_stable : (line stalls).Stable (At stalls e n) := by
  intro s t hm hs
  cases hm with
  | arrive byte hn =>
    refine ⟨hs.echo, ?_, hs.ready⟩
    have hbytes := hs.bytes
    simp only [Line.bytes, List.length_append, List.length_singleton] at hbytes ⊢
    omega
  | turn hstalls _ =>
    refine ⟨hs.echo, hs.bytes, fun h => ?_⟩
    rw [h] at hstalls
    cases hstalls

/-- Once the pending test has been made, what it saw stays. -/
structure Poised (s : Line) : Prop where
  held : s.held = true
  pending : s.rxThrottled = false ∧ s.rxFifo ≠ [] ∨ s.txIrq = true ∧ s.txReady = true

theorem poised_stable : (line stalls).Stable Poised := by
  intro s t hm hs
  cases hm with
  | arrive byte hn => exact ⟨hs.held, hs.pending.imp_left fun h => ⟨h.1, by simp⟩⟩
  | turn _ hheld =>
    rw [hs.held] at hheld
    cases hheld

theorem line_answer {ρ : Type} {c : Call ρ} {r : ρ} {u : System}
    (h : driver.answer c s.toSystem r u) (hr : Promised c s r) :
    ∃ r t, (line stalls).answer c s r t :=
  ⟨r, { u with txReady := s.txReady, toCome := s.toCome, held := held c s.held },
    h, hr, rfl, rfl, rfl⟩

theorem fifoRead_answers (len : ℕ) (s : Line) :
    ∃ r t, (line stalls).answer (.fifoRead len) s r t := by
  apply line_answer (answer_of_reply 0 rfl)
  intro hlen hne
  have hpos : 0 < s.rxFifo.length := List.length_pos_iff.mpr hne
  simp
  omega

/-- The calls that take no bytes from the line, and are always answered. -/
def Plain {ρ : Type} : Call ρ → Prop
  | .fifoRead _ => False
  | .interrupt => False
  | _ => True

theorem plain_answers {ρ : Type} {c : Call ρ} (hc : Plain c) (s : Line) :
    ∃ r t, (line stalls).answer c s r t := by
  cases c with
  | irqUpdate => exact line_answer (r := true) (u := s.toSystem) ⟨rfl, rfl⟩ rfl
  | irqIsPending =>
    by_cases h : s.Pending
    · exact line_answer (r := true) (u := s.toSystem) ⟨rfl, rfl⟩ (iff_of_true rfl h)
    · exact line_answer (r := false) (u := s.toSystem) ⟨rfl, rfl⟩ (by simp [Promised, h])
  | irqRxReady =>
    by_cases h : s.rxFifo ≠ []
    · exact line_answer (r := true) (u := s.toSystem) ⟨rfl, rfl⟩ (iff_of_true rfl h)
    · exact line_answer (r := false) (u := s.toSystem) ⟨rfl, rfl⟩ (by simp [Promised, h])
  | irqTxReady => exact line_answer (r := s.txReady) (u := s.toSystem) ⟨rfl, rfl⟩ rfl
  | fifoRead len => exact hc.elim
  | interrupt => exact hc.elim
  | _ => exact line_answer (answer_of_reply 0 rfl) trivial

theorem taken_plain {ρ : Type} {c : Call ρ} (hc : Plain c) (r : ρ) : taken c r = [] := by
  cases c with
  | fifoRead len => exact hc.elim
  | _ => rfl

theorem returns_plain {ρ : Type} {c : Call ρ} {P : Line → Prop} {R : ρ → Line → Prop}
    (hP : (line stalls).Stable P) (hs : P s)
    (h : ∀ t r u, P t → (line stalls).answer c t r u → R r u) (hc : Plain c := by trivial) :
    Returns (line stalls) .none R (liftM c) s :=
  .lift hP hs (fun _ _ => trivial) (fun t _ => plain_answers hc t) h

/-- A plain call, seen from the echo. -/
theorem At.call {ρ : Type} {c : Call ρ} {R : ρ → Line → Prop} (hs : At stalls e n s)
    (h : ∀ r e', echoDriver.answer c e r e' → ∀ u, At stalls e' n u → R r u)
    (hc : Plain c := by trivial) : Returns (line stalls) .none R (liftM c) s := by
  refine returns_plain at_stable hs (fun t r u ht ha => ?_) hc
  obtain ⟨⟨hecho, hfifo⟩, -, hready, hcome, -⟩ := ha
  rw [ht.echo] at hecho
  refine h r u.toEcho hecho u ⟨rfl, ?_, fun hs => hready.trans (ht.ready hs)⟩
  rw [taken_plain hc, List.nil_append] at hfifo
  rw [← ht.bytes, Line.bytes, Line.bytes, hfifo, hcome]

/-! ## The tests of one round -/

theorem line_ext (hsystem : t.toSystem = s.toSystem) (hready : t.txReady = s.txReady)
    (hcome : t.toCome = s.toCome) (hheld : t.held = s.held) : t = s := by
  cases t
  cases s
  simp_all

theorem system_ext {a b : System} (hecho : a.toEcho = b.toEcho) (hfifo : a.rxFifo = b.rxFifo) :
    a = b := by
  cases a
  cases b
  simp_all

theorem answer_irqUpdate {r : Bool} (h : (line stalls).answer .irqUpdate s r t) :
    r = true ∧ t = { s with held := false } := by
  obtain ⟨⟨hecho, hfifo⟩, hr, hready, hcome, hheld⟩ := h
  exact ⟨hr, line_ext (system_ext hecho hfifo.symm) hready hcome hheld⟩

theorem answer_irqIsPending {r : Bool} (h : (line stalls).answer .irqIsPending s r t) :
    (r = true ↔ s.Pending) ∧ t = { s with held := true } := by
  obtain ⟨⟨hecho, hfifo⟩, hr, hready, hcome, hheld⟩ := h
  exact ⟨hr, line_ext (system_ext hecho hfifo.symm) hready hcome hheld⟩

theorem answer_irqRxReady {r : Bool} (h : (line stalls).answer .irqRxReady s r t) :
    (r = true ↔ s.rxFifo ≠ []) ∧ t = s := by
  obtain ⟨⟨hecho, hfifo⟩, hr, hready, hcome, hheld⟩ := h
  exact ⟨hr, line_ext (system_ext hecho hfifo.symm) hready hcome hheld⟩

theorem answer_irqTxReady {r : Bool} (h : (line stalls).answer .irqTxReady s r t) :
    r = s.txReady ∧ t = { s with held := false } := by
  obtain ⟨⟨hecho, hfifo⟩, hr, hready, hcome, hheld⟩ := h
  exact ⟨hr, line_ext (system_ext hecho hfifo.symm) hready hcome hheld⟩

theorem answer_rxThrottled {r : Bool} (h : (line stalls).answer .rxThrottled s r t) :
    r = s.rxThrottled ∧ t = s := by
  obtain ⟨⟨⟨hr, hecho⟩, hfifo⟩, -, hready, hcome, hheld⟩ := h
  exact ⟨hr, line_ext (system_ext hecho hfifo.symm) hready hcome hheld⟩

theorem answer_ringBufSpaceGet {r : ℕ} (h : (line stalls).answer .ringBufSpaceGet s r t) :
    r = s.ring.space ∧ t = s := by
  obtain ⟨⟨⟨hr, hecho⟩, hfifo⟩, -, hready, hcome, hheld⟩ := h
  exact ⟨hr, line_ext (system_ext hecho hfifo.symm) hready hcome hheld⟩

/-- Bytes that wait go on waiting. -/
theorem unread_stable : (line stalls).Stable fun t => At stalls e n t ∧ t.rxFifo ≠ [] := by
  intro t u hm ht
  refine ⟨at_stable t u hm ht.1, ?_⟩
  cases hm with
  | arrive byte hn => simp
  | turn _ _ => exact ht.2

/-- A read with room for bytes, when some are waiting. -/
theorem At.fifoRead {len : ℕ} {R : ℤ × List UInt8 → Line → Prop} (hs : At stalls e n s)
    (hlen : 0 < len) (hne : s.rxFifo ≠ [])
    (h : ∀ data u, data ≠ [] → data.length ≤ len → data.length ≤ n →
      At stalls { e with received := e.received ++ data } (n - data.length) u →
        R (data.length, data) u) :
    Returns (line stalls) .none R (liftM (Call.fifoRead len)) s := by
  apply Returns.lift unread_stable ⟨hs, hne⟩ (fun _ _ => trivial) fun t _ => fifoRead_answers len t
  intro t r u ht ha
  obtain ⟨ht, hne⟩ := ht
  obtain ⟨⟨hecho, hfifo⟩, hr, hready, hcome, -⟩ := ha
  obtain ⟨rc, data⟩ := r
  have hpos : (1 : ℤ) ≤ rc := hr hlen hne
  cases hecho with
  | inl hfail =>
    have hneg : rc < 0 := hfail.1
    omega
  | inr hread =>
    obtain ⟨hrc, hle, hecho⟩ := hread
    obtain rfl : rc = data.length := hrc
    rw [ht.echo] at hecho
    have hbytes := ht.bytes
    have hlength : t.rxFifo.length = data.length + u.rxFifo.length := by
      rw [hfifo, List.length_append]
      rfl
    rw [Line.bytes] at hbytes
    refine h data u ?_ hle (by omega) ⟨hecho, ?_, fun hs => hready.trans (ht.ready hs)⟩
    · intro hnil
      rw [hnil] at hpos
      simp at hpos
    · rw [Line.bytes, hcome]
      omega

end NrfProjects.CdcAcm
