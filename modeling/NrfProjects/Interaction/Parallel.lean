import Mathlib.Logic.Function.Basic
import NrfProjects.Interaction.Replay
import NrfProjects.Interaction.Safety

/-! # Several programs beside one device

The parties of a team make their calls one at a time, in any order. To each of them the calls of
the others look like moves of the device. `Team.steps` is the rely-guarantee rule: it is enough to
show each party safe beside moves `G j` of the others, where its own calls are moves `G i`. -/

namespace Interaction
set_option autoImplicit false
open Prog

variable {Op : Type → Type} {σ α ι : Type} {D : Device Op σ} {W : ι → Watch Op σ}
  {Q : ι → α → σ → Prop} {G : ι → σ → σ → Prop} {i : ι}

/-- The device, with further moves. -/
def Device.beside (D : Device Op σ) (R : σ → σ → Prop) : Device Op σ where
  answer := D.answer
  move s t := D.move s t ∨ R s t

/-- What the parties other than `i` do. -/
def others (G : ι → σ → σ → Prop) (i : ι) (s t : σ) : Prop := ∃ j, j ≠ i ∧ G j s t

theorem Device.stable_beside {R : σ → σ → Prop} {P : σ → Prop} :
    (D.beside R).Stable P ↔ D.Stable P ∧ ∀ s t, R s t → P s → P t := by
  constructor
  · intro h
    exact ⟨fun s t hm => h s t (.inl hm), fun s t hr => h s t (.inr hr)⟩
  · intro h s t hm
    cases hm with
    | inl hm => exact h.1 s t hm
    | inr hr => exact h.2 s t hr

/-! ## Teams -/

/-- The parties are safe, each beside the others, and keep to what they promise each other. -/
structure Team (D : Device Op σ) (W : ι → Watch Op σ) (G : ι → σ → σ → Prop)
    (Q : ι → α → σ → Prop) (p : ι → Prog Op α) (s : σ) : Prop where
  safe : ∀ i, Safe (D.beside (others G i)) (W i) (p i) s (Q i)
  promise : ∀ i {ρ : Type} (c : Op ρ) t, (W i).atCall c t → ∀ r u, D.answer c t r u → G i t u

variable [DecidableEq ι]

inductive TeamStep (D : Device Op σ) : (ι → Prog Op α) × σ → (ι → Prog Op α) × σ → Prop
  | party {p : ι → Prog Op α} {s t : σ} {q : Prog Op α} (i : ι) (h : Step D (p i, s) (q, t)) :
      TeamStep D (p, s) (Function.update p i q, t)

abbrev TeamSteps (D : Device Op σ) :
    (ι → Prog Op α) × σ → (ι → Prog Op α) × σ → Prop :=
  Relation.ReflTransGen (TeamStep D)

variable {p q : ι → Prog Op α} {s t : σ}

/-- A run of one party, while the others wait. -/
theorem TeamSteps.of_steps (i : ι) {p' : Prog Op α} (h : Steps D (p i, s) (p', t)) :
    TeamSteps D (p, s) (Function.update p i p', t) := by
  suffices hall : ∀ x, Steps D (p i, s) x → TeamSteps D (p, s) (Function.update p i x.1, x.2) from
    hall _ h
  intro x hx
  induction hx with
  | refl => rw [Function.update_eq_self]
  | @tail y z _ hstep ih =>
    have hparty : TeamStep D (Function.update p i y.1, y.2) _ :=
      .party (q := z.1) (t := z.2) i (by rwa [Function.update_self])
    rw [Function.update_idem] at hparty
    exact ih.tail hparty

theorem Team.step (h : Team D W G Q p s) (hs : TeamStep D (p, s) (q, t)) :
    Team D W G Q q t := by
  refine ⟨fun j => ?_, h.promise⟩
  cases hs with
  | @party _ _ _ p' i hs =>
    by_cases hij : j = i
    · subst hij
      rw [Function.update_self]
      apply (h.safe j).steps
      generalize hp : p j = x at hs
      cases hs with
      | call ha => exact .single (.call ha)
      | enter b body k => exact .single (.enter b body k s)
      | move _ hm => exact .single (.move _ (.inl hm))
    · rw [Function.update_of_ne hij]
      apply (h.safe j).steps
      have hhere := h.safe i _ _ .refl
      generalize hp : p i = x at hs hhere
      cases hs with
      | @call _ c k _ _ r ha =>
        exact .single (.move _ (.inr ⟨i, Ne.symm hij, h.promise i c s hhere r t ha⟩))
      | enter b body k => exact .refl
      | move _ hm => exact .single (.move _ (.inl hm))

theorem Team.steps (h : Team D W G Q p s) (hs : TeamSteps D (p, s) (q, t)) :
    Team D W G Q q t := by
  suffices hall : ∀ x, TeamSteps D (p, s) x → Team D W G Q x.1 x.2 from hall _ hs
  intro x hx
  induction hx with
  | refl => exact h
  | tail _ hstep ih => exact ih.step hstep

/-- A party's watch holds wherever it stands at a call. -/
theorem Team.atCall {ρ : Type} {c : Op ρ} (h : Team D W G Q p s)
    (hs : TeamSteps D (p, s) (q, t)) (hc : (q i).Calls c) : (W i).atCall c t :=
  ((h.steps hs).safe i).atCall .refl hc

/-! ## Replaying a run -/

/-- The parties of a list run one after the other, each for a number of steps. -/
def rota (f : Script Op σ) : List (ι × ℕ) → (ι → Prog Op α) × σ → (ι → Prog Op α) × σ
  | [], x => x
  | (i, n) :: l, (p, s) =>
    rota f l (Function.update p i (replay f n (p i, s)).1, (replay f n (p i, s)).2)

theorem rota_steps {f : Script Op σ} (hf : f.Follows D) (l : List (ι × ℕ))
    (x : (ι → Prog Op α) × σ) : TeamSteps D x (rota f l x) := by
  induction l generalizing x with
  | nil => exact .refl
  | cons y l ih => exact (TeamSteps.of_steps y.1 (replay_steps hf y.2 _)).trans (ih _)

end Interaction
