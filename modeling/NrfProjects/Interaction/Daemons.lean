import NrfProjects.Interaction.Calls
import NrfProjects.Interaction.Parallel

/-! # Threads that wait and handle

A daemon waits for something to do, handles it, and waits again, for ever. Wherever it stands, it
waits or is in its handler; and where the calls of the handler can be answered, it can come back to
its wait. -/

namespace Interaction
set_option autoImplicit false
open Prog

variable {Op : Type → Type} {σ α ε ι : Type} {D : Device Op σ} {C : {ρ : Type} → Op ρ → Prop}

namespace Prog

def daemonRound (wait : Op ε) (handle : ε → Prog Op Unit) : Prog Op (Unit ⊕ α) := do
  let event ← wait
  handle event
  return .inl ()

def daemon (wait : Op ε) (handle : ε → Prog Op Unit) : Prog Op α :=
  repeatM () fun _ => daemonRound wait handle

/-- A daemon at its wait. -/
def waiting (wait : Op ε) (handle : ε → Prog Op Unit) : Prog Op α :=
  call wait fun event => (handle event).bind fun _ => daemon wait handle

/-- The points of a daemon whose handler has no loop and makes calls in `C` only. -/
inductive AtDaemon (wait : Op ε) (handle : ε → Prog Op Unit) (C : {ρ : Type} → Op ρ → Prop) :
    Prog Op α → Prop
  | idle : AtDaemon wait handle C (waiting wait handle)
  | busy (q : Prog Op Unit) (hfree : q.LoopFree) (honly : q.Only C) :
      AtDaemon wait handle C (q.bind fun _ => daemon wait handle)

end Prog

variable {wait : Op ε} {handle : ε → Prog Op Unit} {p q : Prog Op α} {s t : σ}

theorem atDaemon_daemon : (daemon wait handle : Prog Op α).AtDaemon wait handle C :=
  .busy (.ret ()) trivial trivial

theorem daemonRound_eq :
    (daemonRound wait handle).bind (again (fun _ => daemonRound wait handle) ret) =
      (waiting wait handle : Prog Op α) := by
  have hround : (daemonRound wait handle : Prog Op (Unit ⊕ α)) =
      call wait fun event => (handle event).bind fun _ => ret (.inl ()) := rfl
  rw [hround]
  simp only [call_bind, bind_bind]
  rfl

/-- The next round begins at the wait. -/
theorem daemon_step (s : σ) :
    Step D ((daemon wait handle : Prog Op α), s) (waiting wait handle, s) := by
  have hstep := Step.enter (D := D) () (fun _ => daemonRound wait handle) (ret : α → Prog Op α) s
  rw [daemonRound_eq] at hstep
  exact hstep

/-! ## The points of a daemon -/

theorem Prog.AtDaemon.step (hhandle : ∀ event, (handle event).LoopFree ∧ (handle event).Only C)
    (h : p.AtDaemon wait handle C) (hs : Step D (p, s) (q, t)) : q.AtDaemon wait handle C := by
  cases h with
  | idle =>
    cases hs with
    | call ha => exact .busy _ (hhandle _).1 (hhandle _).2
    | move _ hm => exact .idle
  | busy q hfree honly =>
    cases q with
    | ret a =>
      cases hs with
      | enter =>
        rw [daemonRound_eq]
        exact .idle
      | move _ hm => exact atDaemon_daemon
    | call c k =>
      cases hs with
      | call ha => exact .busy _ (hfree _) (honly.2 _)
      | move _ hm => exact .busy (.call c k) hfree honly
    | loop b body k => exact hfree.elim

/-- A program without loops can end where its calls are answered, and keep what the answers keep. -/
theorem Prog.LoopFree.ends {I : σ → Prop}
    (hanswer : ∀ {ρ : Type} (c : Op ρ) s, C c → I s → ∃ r t, D.answer c s r t ∧ I t)
    (hfree : p.LoopFree) (honly : p.Only C) (hs : I s) : ∃ a t, Steps D (p, s) (.ret a, t) ∧ I t := by
  induction p generalizing s with
  | ret a => exact ⟨a, s, .refl, hs⟩
  | call c k ih =>
    obtain ⟨r, t, ha, ht⟩ := hanswer c s honly.1 hs
    obtain ⟨a, u, hrun, hu⟩ := ih r (hfree r) (honly.2 r) ht
    exact ⟨a, u, hrun.head (.call ha), hu⟩
  | loop b body k => exact hfree.elim

theorem Prog.AtDaemon.comesBack {I : σ → Prop}
    (hanswer : ∀ {ρ : Type} (c : Op ρ) s, C c → I s → ∃ r t, D.answer c s r t ∧ I t)
    (h : p.AtDaemon wait handle C) (hs : I s) :
    ∃ t, Steps D (p, s) (waiting wait handle, t) ∧ I t := by
  cases h with
  | idle => exact ⟨s, .refl, hs⟩
  | busy q hfree honly =>
    obtain ⟨_, t, hrun, ht⟩ := hfree.ends hanswer honly hs
    exact ⟨t, (hrun.bind _).tail (daemon_step t), ht⟩

/-! ## In a team -/

/-- What every step of a program keeps, a run keeps of the program of each party. -/
theorem TeamSteps.program [DecidableEq ι] {P : Prog Op α → Prop}
    (hP : ∀ q s q' t, Step D (q, s) (q', t) → P q → P q') {p q : ι → Prog Op α}
    (h : TeamSteps D (p, s) (q, t)) (i : ι) (hp : P (p i)) : P (q i) := by
  suffices hall : ∀ x, TeamSteps D (p, s) x → P (x.1 i) from hall _ h
  intro x hx
  induction hx with
  | refl => exact hp
  | tail _ hstep ih =>
    cases hstep with
    | @party q _ _ q' j hstep =>
      dsimp only at ih ⊢
      by_cases hij : i = j
      · subst hij
        rw [Function.update_self]
        exact hP _ _ _ _ hstep ih
      · rw [Function.update_of_ne hij]
        exact ih

end Interaction
