import NrfProjects.Interaction.Returns

/-! # The calls a program can make

`p.Only C`: every call in the text of `p` meets `C`. It says nothing about the device, so it is
checked once for a whole program; an invariant that all such calls keep then holds in every run. -/

namespace Interaction
set_option autoImplicit false
open Prog

variable {Op : Type → Type} {σ α β γ δ : Type} {D : Device Op σ} {W : Watch Op σ}
  {C : {ρ : Type} → Op ρ → Prop}

namespace Prog

def Only (C : {ρ : Type} → Op ρ → Prop) {α : Type} : Prog Op α → Prop
  | ret _ => True
  | call c k => C c ∧ ∀ r, (k r).Only C
  | loop _ body k => (∀ b, (body b).Only C) ∧ ∀ c, (k c).Only C

theorem only_pure (a : α) : (pure a : Prog Op α).Only C := trivial

theorem only_lift {ρ : Type} {c : Op ρ} (h : C c) : (liftM c : Prog Op ρ).Only C :=
  ⟨h, fun _ => trivial⟩

theorem Only.mono {C' : {ρ : Type} → Op ρ → Prop} {p : Prog Op α} (hp : p.Only C)
    (h : ∀ {ρ : Type} (c : Op ρ), C c → C' c) : p.Only C' := by
  induction p with
  | ret a => trivial
  | call c k ih => exact ⟨h c hp.1, fun r => ih r (hp.2 r)⟩
  | loop b body k ihb ihk => exact ⟨fun b => ihb b (hp.1 b), fun c => ihk c (hp.2 c)⟩

theorem Only.bind {p : Prog Op α} {f : α → Prog Op δ} (hp : p.Only C) (hf : ∀ a, (f a).Only C) :
    (p.bind f).Only C := by
  induction p with
  | ret a => exact hf a
  | call c k ih => exact ⟨hp.1, fun r => ih r (hp.2 r) hf⟩
  | loop b body k _ ih => exact ⟨hp.1, fun c => ih c (hp.2 c) hf⟩

theorem Only.seq {p : Prog Op α} {f : α → Prog Op δ} (hp : p.Only C) (hf : ∀ a, (f a).Only C) :
    (p >>= f).Only C :=
  Only.bind hp hf

theorem Only.ite {p q : Prog Op α} {P : Prop} [Decidable P] (hp : p.Only C) (hq : q.Only C) :
    (if P then p else q).Only C := by
  by_cases h : P
  · rwa [if_pos h]
  · rwa [if_neg h]

theorem Only.repeatM {b : β} {body : β → Prog Op (β ⊕ γ)} (h : ∀ b, (body b).Only C) :
    (Prog.repeatM b body).Only C :=
  ⟨h, fun _ => trivial⟩

theorem Only.again {body : β → Prog Op (β ⊕ γ)} {k : γ → Prog Op α} (hb : ∀ b, (body b).Only C)
    (hk : ∀ c, (k c).Only C) (x : β ⊕ γ) : (Prog.again body k x).Only C := by
  cases x with
  | inl b => exact ⟨hb, hk⟩
  | inr c => exact hk c

end Prog

/-- What such calls and the device's own moves keep holds throughout a run. -/
theorem Prog.Only.keeps {I : σ → Prop} {p : Prog Op α} {s : σ} (hp : p.Only C)
    (hI : ∀ {ρ : Type} (c : Op ρ) s r t, C c → I s → D.answer c s r t → I t) (hmove : D.Stable I)
    (hs : I s) : Safe D ⟨I, fun c s => C c ∧ I s⟩ p s fun _ => I := by
  suffices hall : ∀ x, Steps D (p, s) x → x.1.Only C ∧ I x.2 by
    intro q t h
    obtain ⟨hq, ht⟩ := hall _ h
    cases q with
    | ret a => exact ht
    | call c k => exact ⟨hq.1, ht⟩
    | loop b body k => exact ht
  intro x hx
  induction hx with
  | refl => exact ⟨hp, hs⟩
  | @tail y z _ hstep ih =>
    obtain ⟨y₁, y₂⟩ := y
    obtain ⟨hy, ht⟩ := ih
    cases hstep with
    | call ha => exact ⟨hy.2 _, hI _ _ _ _ hy.1 ht ha⟩
    | enter b body k => exact ⟨(hy.1 b).bind fun x => Only.again hy.1 hy.2 x, ht⟩
    | move _ hm => exact ⟨hy, hmove _ _ hm ht⟩

/-- The watch, and that each call is answered. -/
def Watch.answered (W : Watch Op σ) (D : Device Op σ) : Watch Op σ where
  atLoop := W.atLoop
  atCall c s := W.atCall c s ∧ ∃ r t, D.answer c s r t

/-- A program that returns is safe, and never makes a call that is not answered. -/
theorem Returns.safe [D.Quiet] {p : Prog Op α} {s : σ} {Q : α → σ → Prop}
    (h : Returns D W Q p s) : Safe D (W.answered D) p s Q := by
  intro q t hs
  rcases h.steps hs with hq | ⟨a, u, rfl, hQ, hm⟩
  · cases hq with
    | ret hQ => exact hQ
    | call hwatch hanswer => exact ⟨hwatch _ .refl, hanswer _ .refl⟩
    | loop hwatch => exact hwatch _ .refl
  · exact hm.eq ▸ hQ

end Interaction
