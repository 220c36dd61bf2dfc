import Mathlib.Data.Nat.Notation
import NrfProjects.Interaction.Safety

/-! # Programs that return

`Returns D W Q p s`: whatever the device answers, a run of `p` from `s` is never stuck and does not
go on for ever, meets the watch `W` on its way, and returns with a result that meets `Q` at that
moment. It is the least such relation, so a derivation is a bound on every run. -/

namespace Interaction
set_option autoImplicit false
open Prog

variable {Op : Type → Type} {σ α β γ δ : Type} {D : Device Op σ} {W W' : Watch Op σ}

inductive Returns {α : Type} (D : Device Op σ) (W : Watch Op σ) (Q : α → σ → Prop) :
    Prog Op α → σ → Prop
  | ret {a : α} {s : σ} (h : Q a s) : Returns D W Q (.ret a) s
  | call {ρ : Type} {c : Op ρ} {k : ρ → Prog Op α} {s : σ}
      (hwatch : ∀ t, D.Moves s t → W.atCall c t)
      (hanswer : ∀ t, D.Moves s t → ∃ r u, D.answer c t r u)
      (h : ∀ t r u, D.Moves s t → D.answer c t r u → Returns D W Q (k r) u) :
      Returns D W Q (.call c k) s
  | loop {β γ : Type} {b : β} {body : β → Prog Op (β ⊕ γ)} {k : γ → Prog Op α} {s : σ}
      (hwatch : ∀ t, D.Moves s t → W.atLoop t)
      (h : ∀ t, D.Moves s t → Returns D W Q ((body b).bind (again body k)) t) :
      Returns D W Q (.loop b body k) s

variable {Q Q' : α → σ → Prop} {p : Prog Op α} {s t : σ}

theorem Returns.imp (h : Returns D W Q p s) (hQ : ∀ a t, Q a t → Q' a t) :
    Returns D W Q' p s := by
  induction h with
  | ret h => exact .ret (hQ _ _ h)
  | call hwatch hanswer _ ih => exact .call hwatch hanswer ih
  | loop hwatch _ ih => exact .loop hwatch ih

/-- Some run returns, and meets all that every run meets. -/
theorem Returns.meet (h : Returns D W Q p s) (h' : Returns D W' Q' p s) :
    ∃ a t, Q a t ∧ Q' a t := by
  induction h with
  | ret hQ =>
    cases h' with
    | ret hQ' => exact ⟨_, _, hQ, hQ'⟩
  | call _ hanswer _ ih =>
    obtain ⟨r, u, ha⟩ := hanswer _ .refl
    cases h' with
    | call _ _ h' => exact ih _ r u .refl ha (h' _ r u .refl ha)
  | loop _ _ ih =>
    cases h' with
    | loop _ h' => exact ih _ .refl (h' _ .refl)

def Prog.LoopFree {α : Type} : Prog Op α → Prop
  | .ret _ => True
  | .call _ k => ∀ r, (k r).LoopFree
  | .loop _ _ _ => False

theorem loopFree_pure (a : α) : (pure a : Prog Op α).LoopFree := trivial

theorem loopFree_lift {ρ : Type} (c : Op ρ) : (liftM c : Prog Op ρ).LoopFree := fun _ => trivial

theorem Prog.LoopFree.bind {f : α → Prog Op δ} (hp : p.LoopFree) (hf : ∀ a, (f a).LoopFree) :
    (p >>= f).LoopFree := by
  induction p with
  | ret a => exact hf a
  | call c k ih => exact fun r => ih r (hp r) hf
  | loop b body k _ _ => exact hp.elim

theorem Prog.LoopFree.ite {q : Prog Op α} {P : Prop} [Decidable P] (hp : p.LoopFree)
    (hq : q.LoopFree) : (if P then p else q).LoopFree := by
  by_cases h : P
  · rwa [if_pos h]
  · rwa [if_neg h]

/-! ## What a derivation says of runs -/

/-- One step of the program, after any moves of the device. -/
inductive Advance (D : Device Op σ) : Prog Op α × σ → Prog Op α × σ → Prop
  | call {ρ : Type} {c : Op ρ} {k : ρ → Prog Op α} {s t u : σ} {r : ρ} (hm : D.Moves s t)
      (ha : D.answer c t r u) : Advance D (.call c k, s) (k r, u)
  | enter {β γ : Type} {b : β} {body : β → Prog Op (β ⊕ γ)} {k : γ → Prog Op α} {s t : σ}
      (hm : D.Moves s t) : Advance D (.loop b body k, s) ((body b).bind (again body k), t)

/-- No run goes on for ever. -/
theorem Returns.not_forever (h : Returns D W Q p s) (x : ℕ → Prog Op α × σ) (h0 : x 0 = (p, s)) :
    ¬ ∀ n, Advance D (x n) (x (n + 1)) := by
  induction h generalizing x with
  | ret h =>
    intro hx
    have hfirst := hx 0
    rw [h0] at hfirst
    cases hfirst
  | call _ _ _ ih =>
    intro hx
    have hfirst := hx 0
    rw [h0] at hfirst
    generalize h1 : x (0 + 1) = y at hfirst
    cases hfirst with
    | call hm ha => exact ih _ _ _ hm ha (fun n => x (n + 1)) h1 fun n => hx (n + 1)
  | loop _ _ ih =>
    intro hx
    have hfirst := hx 0
    rw [h0] at hfirst
    generalize h1 : x (0 + 1) = y at hfirst
    cases hfirst with
    | enter hm => exact ih _ hm (fun n => x (n + 1)) h1 fun n => hx (n + 1)

/-- A device's moves before the first step change nothing. -/
theorem Returns.moves (h : Returns D W Q p s) (hp : ∀ a, p ≠ .ret a) (hm : D.Moves s t) :
    Returns D W Q p t := by
  cases h with
  | ret h => exact absurd rfl (hp _)
  | call hwatch hanswer h =>
    exact .call (fun u hu => hwatch u (hm.trans hu)) (fun u hu => hanswer u (hm.trans hu))
      fun u r v hu => h u r v (hm.trans hu)
  | loop hwatch h => exact .loop (fun u hu => hwatch u (hm.trans hu)) fun u hu => h u (hm.trans hu)

theorem Returns.steps (h : Returns D W Q p s) {q : Prog Op α} (hs : Steps D (p, s) (q, t)) :
    Returns D W Q q t ∨ ∃ a u, q = .ret a ∧ Q a u ∧ D.Moves u t := by
  suffices hall : ∀ x, Steps D (p, s) x →
      Returns D W Q x.1 x.2 ∨ ∃ a u, x.1 = .ret a ∧ Q a u ∧ D.Moves u x.2 from hall _ hs
  intro x hx
  induction hx with
  | refl => exact .inl h
  | @tail y z _ hstep ih =>
    obtain ⟨y₁, y₂⟩ := y
    rcases ih with hy | ⟨a, u, hret, hQ, hm⟩
    · cases hstep with
      | call ha =>
        cases hy with
        | call _ _ h => exact .inl (h _ _ _ .refl ha)
      | enter =>
        cases hy with
        | loop _ h => exact .inl (h _ .refl)
      | move _ hd =>
        cases y₁ with
        | ret a =>
          cases hy with
          | ret h => exact .inr ⟨a, _, rfl, h, .single hd⟩
        | call c k => exact .inl (hy.moves (fun _ => by simp) (.single hd))
        | loop b body k => exact .inl (hy.moves (fun _ => by simp) (.single hd))
    · obtain rfl : y₁ = .ret a := hret
      cases hstep with
      | move _ hd => exact .inr ⟨a, u, rfl, hQ, hm.tail hd⟩

/-- A run that has returned met `Q` when it did. -/
theorem Returns.result (h : Returns D W Q p s) {a : α} (hs : Steps D (p, s) (.ret a, t)) :
    ∃ u, Q a u ∧ D.Moves u t := by
  cases h.steps hs with
  | inl hret =>
    cases hret with
    | ret hQ => exact ⟨t, hQ, .refl⟩
  | inr hret =>
    obtain ⟨b, u, heq, hQ, hm⟩ := hret
    cases heq
    exact ⟨u, hQ, hm⟩

/-! ## Rules -/

theorem returns_bind_iff {f : α → Prog Op δ} {R : δ → σ → Prop} :
    Returns D W R (p.bind f) s ↔ Returns D W (fun a t => Returns D W R (f a) t) p s := by
  constructor
  · intro h
    generalize hx : p.bind f = x at h
    induction h generalizing p with
    | ret h =>
      cases p with
      | ret a =>
        have hf : f a = .ret _ := hx
        exact .ret (hf ▸ .ret h)
      | call c k => cases hx
      | loop b body k => cases hx
    | call hwatch hanswer h ih =>
      cases p with
      | ret a =>
        have hf : f a = .call _ _ := hx
        exact .ret (hf ▸ .call hwatch hanswer h)
      | call c k =>
        cases hx
        exact .call hwatch hanswer fun t r u hm ha => ih t r u hm ha rfl
      | loop b body k => cases hx
    | loop hwatch h ih =>
      cases p with
      | ret a =>
        have hf : f a = .loop _ _ _ := hx
        exact .ret (hf ▸ .loop hwatch h)
      | call c k => cases hx
      | loop b body k =>
        cases hx
        exact .loop hwatch fun t hm => ih t hm (round_bind _ _ _ f)
  · intro h
    induction h with
    | ret h => exact h
    | call hwatch hanswer _ ih => exact .call hwatch hanswer ih
    | loop hwatch _ ih =>
      refine .loop hwatch fun t hm => ?_
      rw [← round_bind]
      exact ih t hm

theorem returns_bind {f : α → Prog Op δ} {R : δ → σ → Prop} :
    Returns D W R (p >>= f) s ↔ Returns D W (fun a t => Returns D W R (f a) t) p s :=
  returns_bind_iff

theorem returns_pure {a : α} : Returns D W Q (pure a) s ↔ Q a s := by
  constructor
  · intro h
    cases h with
    | ret h => exact h
  · exact .ret

/-- A call from a state with an assertion that the device's own moves keep. -/
theorem Returns.lift {ρ : Type} {c : Op ρ} {P : σ → Prop} {R : ρ → σ → Prop} (hP : D.Stable P)
    (hs : P s) (hW : ∀ t, P t → W.atCall c t) (hanswer : ∀ t, P t → ∃ r u, D.answer c t r u)
    (h : ∀ t r u, P t → D.answer c t r u → R r u) : Returns D W R (liftM c) s := by
  refine .call (fun t hm => hW t (hP.moves hm hs)) (fun t hm => hanswer t (hP.moves hm hs)) ?_
  intro t r u hm ha
  exact .ret (h t r u (hP.moves hm hs) ha)

/-- The rule for loops: each round keeps `Inv` and goes down in a well-founded order, measured
between loop heads. -/
theorem Returns.repeatM (Inv : β → σ → Prop) {r : β × σ → β × σ → Prop} (hr : WellFounded r)
    {b : β} {body : β → Prog Op (β ⊕ γ)} {R : γ → σ → Prop} (h0 : Inv b s)
    (hbody : ∀ b t u, Inv b t → D.Moves t u → W.atLoop u ∧
      Returns D W (fun x v => x.elim (fun b' => Inv b' v ∧ r (b', v) (b, t)) (R · v)) (body b) u) :
    Returns D W R (Prog.repeatM b body) s := by
  generalize hx : (b, s) = x
  induction x using hr.induction generalizing b s with
  | _ x ih =>
    subst hx
    refine .loop (fun u hu => (hbody b s u h0 hu).1) fun u hu => returns_bind_iff.mpr ?_
    refine (hbody b s u h0 hu).2.imp fun y v hy => ?_
    cases y with
    | inl b' => exact ih (b', v) hy.2 hy.1 rfl
    | inr c => exact .ret hy

/-- A safe program without loops returns, if each call it may make is answered. -/
theorem Returns.of_safe (hanswer : ∀ {ρ : Type} (c : Op ρ) t, W.atCall c t → ∃ r u, D.answer c t r u)
    (hp : p.LoopFree) (h : Safe D W p s Q) : Returns D W Q p s := by
  induction p generalizing s with
  | ret a => exact .ret (h.result .refl)
  | call c k ih =>
    have hcall := safe_call_iff.mp h
    refine .call (fun t hm => (hcall t hm).1) (fun t hm => hanswer c t (hcall t hm).1) ?_
    intro t r u hm ha
    exact ih r (hp r) ((hcall t hm).2 r u ha)
  | loop b body k _ _ => exact hp.elim

section Quiet
variable [D.Quiet]

@[simp] theorem returns_lift {ρ : Type} {c : Op ρ} {R : ρ → σ → Prop} :
    Returns D W R (liftM c) s ↔
      W.atCall c s ∧ (∃ r t, D.answer c s r t) ∧ ∀ r t, D.answer c s r t → R r t := by
  constructor
  · intro h
    cases h with
    | call hwatch hanswer h =>
      refine ⟨hwatch s .refl, hanswer s .refl, fun r t ha => ?_⟩
      exact returns_pure.mp (h s r t .refl ha)
  · intro h
    obtain ⟨hW, hanswer, hR⟩ := h
    apply Returns.lift (P := fun t => t = s) (fun _ _ hm => (Device.Quiet.still _ _ hm).elim) rfl
    · rintro t rfl
      exact hW
    · rintro t rfl
      exact hanswer
    · rintro t r u rfl ha
      exact hR r u ha

end Quiet
end Interaction
