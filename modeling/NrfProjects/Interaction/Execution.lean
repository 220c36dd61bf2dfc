import NrfProjects.Interaction.Program

/-! # Running a program against a device

A `Device` says which answers a call may have and how the device's state changes with them, and
which moves the device may make by itself between two calls (an interrupt, bytes arriving). `Step`
is one step of a program beside its device and `Steps` any number of them; a state reached by
`Steps` is exactly a state in which the program can be stopped. -/

namespace Interaction
set_option autoImplicit false
open Prog

structure Device (Op : Type → Type) (σ : Type) where
  answer : {ρ : Type} → Op ρ → σ → ρ → σ → Prop
  move : σ → σ → Prop

variable {Op : Type → Type} {σ α β γ δ : Type} {D : Device Op σ}

/-- The device's own moves, any number of them. -/
abbrev Device.Moves (D : Device Op σ) : σ → σ → Prop := Relation.ReflTransGen D.move

/-- A device that changes only when it is called. -/
class Device.Quiet (D : Device Op σ) : Prop where
  still : ∀ s t, ¬ D.move s t

theorem Device.Moves.eq [hq : D.Quiet] {s t : σ} (h : D.Moves s t) : t = s := by
  induction h with
  | refl => rfl
  | tail _ hm _ => exact (hq.still _ _ hm).elim

@[simp] theorem Device.moves_iff [D.Quiet] {s t : σ} : D.Moves s t ↔ t = s :=
  ⟨Device.Moves.eq, fun h => h ▸ .refl⟩

/-! ## Steps -/

inductive Step (D : Device Op σ) : Prog Op α × σ → Prog Op α × σ → Prop
  | call {ρ : Type} {c : Op ρ} {k : ρ → Prog Op α} {s t : σ} {r : ρ} (ha : D.answer c s r t) :
      Step D (.call c k, s) (k r, t)
  | enter {β γ : Type} (b : β) (body : β → Prog Op (β ⊕ γ)) (k : γ → Prog Op α) (s : σ) :
      Step D (.loop b body k, s) ((body b).bind (again body k), s)
  | move (p : Prog Op α) {s t : σ} (hm : D.move s t) : Step D (p, s) (p, t)

abbrev Steps (D : Device Op σ) : Prog Op α × σ → Prog Op α × σ → Prop :=
  Relation.ReflTransGen (Step D)

theorem Steps.of_moves {s t : σ} (p : Prog Op α) (h : D.Moves s t) : Steps D (p, s) (p, t) := by
  induction h with
  | refl => exact .refl
  | tail _ hm ih => exact ih.tail (.move p hm)

/-! ## Steps of a sequence -/

theorem Step.bind {p q : Prog Op α} {s t : σ} (h : Step D (p, s) (q, t)) (f : α → Prog Op δ) :
    Step D (p.bind f, s) (q.bind f, t) := by
  cases h with
  | call ha => exact .call ha
  | enter b body k =>
    rw [round_bind]
    exact .enter b body (fun c => (k c).bind f) s
  | move _ hm => exact .move _ hm

/-- A step of a sequence is a step of its first part, unless that part has ended. -/
theorem Step.of_bind {p : Prog Op α} {f : α → Prog Op δ} {q : Prog Op δ} {s t : σ}
    (h : Step D (p.bind f, s) (q, t)) :
    (∃ p', Step D (p, s) (p', t) ∧ q = p'.bind f) ∨ ∃ a, p = .ret a := by
  cases p with
  | ret a => exact .inr ⟨a, rfl⟩
  | call c k =>
    left
    cases h with
    | call ha => exact ⟨_, .call ha, rfl⟩
    | move _ hm => exact ⟨_, .move _ hm, rfl⟩
  | loop b body k =>
    left
    cases h with
    | enter => exact ⟨_, .enter b body k s, (round_bind b body k f).symm⟩
    | move _ hm => exact ⟨_, .move _ hm, rfl⟩

theorem Steps.bind {p q : Prog Op α} {s t : σ} (h : Steps D (p, s) (q, t))
    (f : α → Prog Op δ) : Steps D (p.bind f, s) (q.bind f, t) :=
  h.lift (fun x => (x.1.bind f, x.2)) fun _ _ hs => Step.bind hs f

/-- A run of a sequence is still in its first part, or has ended that part and is in the second. -/
theorem Steps.of_bind {p : Prog Op α} {f : α → Prog Op δ} {s : σ} {x : Prog Op δ × σ}
    (h : Steps D (p.bind f, s) x) :
    (∃ p', Steps D (p, s) (p', x.2) ∧ x.1 = p'.bind f) ∨
      ∃ a t, Steps D (p, s) (.ret a, t) ∧ Steps D (f a, t) x := by
  induction h with
  | refl => exact .inl ⟨p, .refl, rfl⟩
  | @tail y z _ hs ih =>
    obtain ⟨y₁, y₂⟩ := y
    obtain ⟨z₁, z₂⟩ := z
    rcases ih with ⟨p', hp, hy⟩ | ⟨a, t, hp, hf⟩
    · obtain rfl : y₁ = p'.bind f := hy
      rcases Step.of_bind hs with ⟨q, hq, hz⟩ | ⟨a, rfl⟩
      · exact .inl ⟨q, hp.tail hq, hz⟩
      · exact .inr ⟨a, y₂, hp, .single hs⟩
    · exact .inr ⟨a, t, hp, hf.tail hs⟩

end Interaction
