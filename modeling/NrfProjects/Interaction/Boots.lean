import NrfProjects.Interaction.Replay
import NrfProjects.Interaction.Safety

/-! # Boots cut by power loss

A device that is powered up runs its main program once, to its end or to a cut at any point; what
it keeps over a cut is what `powerUp` makes of the state it was left in. A `History` is any number
of boots, with the state each one found and how it ended. -/

namespace Interaction
set_option autoImplicit false
open Prog

variable {Op : Type → Type} {σ α : Type}

section
variable (D : Device Op σ) (powerUp : σ → σ) (main : Prog Op α)

inductive Boot : σ → Option α → σ → Prop
  | finished {s t : σ} {a : α} (h : Steps D (main, powerUp s) (.ret a, t)) : Boot s (some a) t
  | cut {s t : σ} {q : Prog Op α} (h : Steps D (main, powerUp s) (q, t)) : Boot s none t

inductive History : σ → List (σ × Option α) → σ → Prop
  | start (s : σ) : History s [] s
  | boot {s₀ s t : σ} {l : List (σ × Option α)} {o : Option α} (hl : History s₀ l s)
      (hb : Boot D powerUp main s o t) : History s₀ (l ++ [(s, o)]) t

/-- A state some boot of some history passes through. -/
def Visited (s₀ t : σ) : Prop :=
  ∃ l s q, History D powerUp main s₀ l s ∧ Steps D (main, powerUp s) (q, t)

end

variable {D : Device Op σ} {powerUp : σ → σ} {main : Prog Op α} {s₀ s t : σ}
  {l : List (σ × Option α)}

theorem Boot.of_replay {f : Script Op σ} (hf : f.Follows D) (n : ℕ) {a : α}
    (h : replay f n (main, powerUp s) = (.ret a, t)) : Boot D powerUp main s (some a) t :=
  .finished (Steps.of_replay hf n h)

/-- **Crash invariants.** What every boot keeps at each of its points, from any state that has it,
holds in every state of every history. -/
theorem History.invariant {I : σ → Prop} (h : History D powerUp main s₀ l s) (h0 : I s₀)
    (hmain : ∀ s, I s → Safe D (.always I) main (powerUp s) fun _ t => I t) : I s := by
  induction h with
  | start => exact h0
  | boot _ hb ih =>
    cases hb with
    | finished hs => exact (hmain _ ih).result hs
    | cut hs => exact (hmain _ ih).always (fun _ _ ht => ht) hs

theorem Visited.invariant {I : σ → Prop} (h : Visited D powerUp main s₀ t) (h0 : I s₀)
    (hmain : ∀ s, I s → Safe D (.always I) main (powerUp s) fun _ t => I t) : I t := by
  obtain ⟨l, s, q, hl, hs⟩ := h
  exact (hmain s (hl.invariant h0 hmain)).always (fun _ _ ht => ht) hs

end Interaction
