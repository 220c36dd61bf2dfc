import NrfProjects.Interaction.Execution

/-! # Leaving part of a device out

A run beside a device is a run beside any device that allows what the first one does as seen
through a projection of its state. So moves that the projection does not see can be left out. -/

namespace Interaction
set_option autoImplicit false

variable {Op : Type → Type} {σ τ α : Type}

structure Device.Projects (D : Device Op σ) (π : σ → τ) (D' : Device Op τ) : Prop where
  answer : ∀ {ρ : Type} (c : Op ρ) (s : σ) (r : ρ) (t : σ),
    D.answer c s r t → D'.answer c (π s) r (π t)
  move : ∀ s t : σ, D.move s t → D'.Moves (π s) (π t)

theorem Steps.project {D : Device Op σ} {π : σ → τ} {D' : Device Op τ} (hD : D.Projects π D')
    {p q : Prog Op α} {s t : σ} (h : Steps D (p, s) (q, t)) : Steps D' (p, π s) (q, π t) := by
  suffices hall : ∀ x, Steps D (p, s) x → Steps D' (p, π s) (x.1, π x.2) from hall _ h
  intro x hx
  induction hx with
  | refl => exact .refl
  | @tail y z _ hstep ih =>
    obtain ⟨y₁, y₂⟩ := y
    cases hstep with
    | call ha => exact ih.tail (.call (hD.answer _ _ _ _ ha))
    | enter b body k => exact ih.tail (.enter b body k _)
    | move _ hm => exact ih.trans (Steps.of_moves _ (hD.move _ _ hm))

end Interaction
