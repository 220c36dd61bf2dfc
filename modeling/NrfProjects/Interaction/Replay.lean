import Mathlib.Data.Nat.Notation
import NrfProjects.Interaction.Execution

/-! # Replaying one run

A `Script` picks one answer for each call, so that a program can be evaluated. `replay_steps` turns
the evaluation into a run of any device that allows these answers. -/

namespace Interaction
set_option autoImplicit false
open Prog

variable {Op : Type → Type} {σ α : Type} {D : Device Op σ}

/-- One answer for each call the script goes on with; it stops at the others. -/
abbrev Script (Op : Type → Type) (σ : Type) : Type 1 := {ρ : Type} → Op ρ → σ → Option (ρ × σ)

/-- The script's answers are answers of the device, perhaps after moves of its own. -/
def Script.Follows (f : Script Op σ) (D : Device Op σ) : Prop :=
  ∀ {ρ : Type} (c : Op ρ) (s : σ) (r : ρ) (t : σ), f c s = some (r, t) →
    ∃ u, D.Moves s u ∧ D.answer c u r t

/-- They are while `I` holds, and keep it. -/
def Script.FollowsIn (f : Script Op σ) (D : Device Op σ) (I : σ → Prop) : Prop :=
  ∀ {ρ : Type} (c : Op ρ) (s : σ) (r : ρ) (t : σ), I s → f c s = some (r, t) →
    I t ∧ ∃ u, D.Moves s u ∧ D.answer c u r t

def replay (f : Script Op σ) : ℕ → Prog Op α × σ → Prog Op α × σ
  | 0, x => x
  | _ + 1, (.ret a, s) => (.ret a, s)
  | n + 1, (.call c k, s) =>
    match f c s with
    | some (r, t) => replay f n (k r, t)
    | none => (.call c k, s)
  | n + 1, (.loop b body k, s) => replay f n ((body b).bind (again body k), s)

theorem replay_steps_in {f : Script Op σ} {I : σ → Prop} (hf : f.FollowsIn D I) :
    ∀ (n : ℕ) (x : Prog Op α × σ), I x.2 → Steps D x (replay f n x)
  | 0, _, _ => .refl
  | _ + 1, (.ret _, _), _ => .refl
  | n + 1, (.call c k, s), hs => by
    cases hr : f c s with
    | none =>
      simp only [replay, hr]
      exact .refl
    | some x =>
      obtain ⟨r, t⟩ := x
      obtain ⟨ht, u, hm, ha⟩ := hf c s r t hs hr
      simp only [replay, hr]
      exact ((Steps.of_moves _ hm).tail (.call ha)).trans (replay_steps_in hf n (k r, t) ht)
  | n + 1, (.loop b body k, s), hs =>
    (replay_steps_in hf n ((body b).bind (again body k), s) hs).head (.enter b body k s)

theorem replay_steps {f : Script Op σ} (hf : f.Follows D) (n : ℕ) (x : Prog Op α × σ) :
    Steps D x (replay f n x) :=
  replay_steps_in (fun c s r t _ h => ⟨trivial, hf c s r t h⟩) n x trivial

/-- A run reaches what its replay evaluates to. -/
theorem Steps.of_replay {f : Script Op σ} (hf : f.Follows D) (n : ℕ) {p q : Prog Op α} {s t : σ}
    (h : replay f n (p, s) = (q, t)) : Steps D (p, s) (q, t) :=
  h ▸ replay_steps hf n (p, s)

end Interaction
