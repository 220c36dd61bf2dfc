import NrfProjects.Interaction.Execution

/-! # Invariants at every point of a run

`Safe D W p s Q`: every run of `p` from `s` meets the watch `W` at each loop head and each call it
comes to, and its result, if there is one, meets `Q`. Since a run may stop anywhere, `W` also speaks
of the states a power cut leaves behind. The rules follow the constructors of `Prog`; a loop needs
an invariant of its loop variable and of the device. -/

namespace Interaction
set_option autoImplicit false
open Prog

/-- What must hold of the device at the points of a program: at loop heads, and before each call. -/
structure Watch (Op : Type → Type) (σ : Type) where
  atLoop : σ → Prop
  atCall : {ρ : Type} → Op ρ → σ → Prop

variable {Op : Type → Type} {σ α β γ δ : Type} {D : Device Op σ} {W W' : Watch Op σ}

/-- The same condition at every point. -/
def Watch.always (I : σ → Prop) : Watch Op σ := ⟨I, fun _ => I⟩

/-- A watch that demands nothing. -/
def Watch.none : Watch Op σ := ⟨fun _ => True, fun _ _ => True⟩

@[simp] theorem Watch.always_atLoop (I : σ → Prop) (s : σ) :
    (Watch.always I : Watch Op σ).atLoop s ↔ I s := Iff.rfl

@[simp] theorem Watch.always_atCall (I : σ → Prop) {ρ : Type} (c : Op ρ) (s : σ) :
    (Watch.always I).atCall c s ↔ I s := Iff.rfl

@[simp] theorem Watch.none_atLoop (s : σ) : (Watch.none : Watch Op σ).atLoop s := trivial

@[simp] theorem Watch.none_atCall {ρ : Type} (c : Op ρ) (s : σ) : Watch.none.atCall c s := trivial

/-- The watch, or the demand on the result, at the point where the program stands. -/
def Prog.Meets (W : Watch Op σ) (s : σ) (Q : α → σ → Prop) : Prog Op α → Prop
  | .ret a => Q a s
  | .call c _ => W.atCall c s
  | .loop _ _ _ => W.atLoop s

def Safe (D : Device Op σ) (W : Watch Op σ) (p : Prog Op α) (s : σ) (Q : α → σ → Prop) : Prop :=
  ∀ q t, Steps D (p, s) (q, t) → q.Meets W t Q

/-! ## Using safety -/

theorem Safe.steps {p q : Prog Op α} {s t : σ} {Q : α → σ → Prop} (h : Safe D W p s Q)
    (hs : Steps D (p, s) (q, t)) : Safe D W q t Q :=
  fun q' t' h' => h q' t' (hs.trans h')

theorem Safe.result {p : Prog Op α} {s t : σ} {a : α} {Q : α → σ → Prop} (h : Safe D W p s Q)
    (hs : Steps D (p, s) (.ret a, t)) : Q a t :=
  h _ _ hs

theorem Safe.atLoop {p q : Prog Op α} {s t : σ} {Q : α → σ → Prop} (h : Safe D W p s Q)
    (hs : Steps D (p, s) (q, t)) (hq : q.AtLoop) : W.atLoop t := by
  have hm := h q t hs
  cases q with
  | loop b body k => exact hm
  | ret a => exact hq.elim
  | call c k => exact hq.elim

theorem Safe.atCall {ρ : Type} {c : Op ρ} {p q : Prog Op α} {s t : σ} {Q : α → σ → Prop}
    (h : Safe D W p s Q) (hs : Steps D (p, s) (q, t)) (hq : q.Calls c) : W.atCall c t := by
  obtain ⟨k, rfl⟩ := hq
  exact h _ _ hs

/-- An invariant of all points, results included, holds in every state of every run. -/
theorem Safe.always {I : σ → Prop} {p q : Prog Op α} {s t : σ} {Q : α → σ → Prop}
    (h : Safe D (Watch.always I) p s Q) (hQ : ∀ a t, Q a t → I t)
    (hs : Steps D (p, s) (q, t)) : I t := by
  have hm := h q t hs
  cases q with
  | loop b body k => exact hm
  | ret a => exact hQ a t hm
  | call c k => exact hm

theorem Safe.mono {p : Prog Op α} {s : σ} {Q Q' : α → σ → Prop} (h : Safe D W p s Q)
    (hl : ∀ t, W.atLoop t → W'.atLoop t)
    (hc : ∀ {ρ : Type} (c : Op ρ) t, W.atCall c t → W'.atCall c t)
    (hQ : ∀ a t, Q a t → Q' a t) : Safe D W' p s Q' := by
  intro q t hs
  have hm := h q t hs
  cases q with
  | ret a => exact hQ a t hm
  | call c k => exact hc c t hm
  | loop b body k => exact hl t hm

/-- Two watches at once. -/
def Watch.and (W W' : Watch Op σ) : Watch Op σ where
  atLoop s := W.atLoop s ∧ W'.atLoop s
  atCall c s := W.atCall c s ∧ W'.atCall c s

theorem Safe.and {p : Prog Op α} {s : σ} {Q Q' : α → σ → Prop} (h : Safe D W p s Q)
    (h' : Safe D W' p s Q') : Safe D (W.and W') p s fun a t => Q a t ∧ Q' a t := by
  intro q t hs
  have hm := h q t hs
  have hm' := h' q t hs
  cases q with
  | ret a => exact ⟨hm, hm'⟩
  | call c k => exact ⟨hm, hm'⟩
  | loop b body k => exact ⟨hm, hm'⟩

theorem Safe.imp {p : Prog Op α} {s : σ} {Q Q' : α → σ → Prop} (h : Safe D W p s Q)
    (hQ : ∀ a t, Q a t → Q' a t) : Safe D W p s Q' :=
  h.mono (fun _ ht => ht) (fun _ _ ht => ht) hQ

/-! ## Rules for the constructors -/

theorem safe_ret_iff {a : α} {s : σ} {Q : α → σ → Prop} :
    Safe D W (.ret a) s Q ↔ ∀ t, D.Moves s t → Q a t := by
  constructor
  · intro h t hm
    exact h _ _ (Steps.of_moves _ hm)
  · intro h
    suffices hinv : ∀ x : Prog Op α × σ, Steps D (.ret a, s) x → x.1 = .ret a ∧ D.Moves s x.2 by
      intro q t hs
      obtain ⟨rfl, hm⟩ := hinv _ hs
      exact h t hm
    intro x hs
    induction hs with
    | refl => exact ⟨rfl, .refl⟩
    | @tail y z _ hstep ih =>
      obtain ⟨y₁, y₂⟩ := y
      obtain ⟨rfl, hm⟩ := ih
      cases hstep with
      | move _ hd => exact ⟨rfl, hm.tail hd⟩

theorem safe_call_iff {ρ : Type} {c : Op ρ} {k : ρ → Prog Op α} {s : σ} {Q : α → σ → Prop} :
    Safe D W (.call c k) s Q ↔
      ∀ t, D.Moves s t → W.atCall c t ∧ ∀ r u, D.answer c t r u → Safe D W (k r) u Q := by
  constructor
  · intro h t hm
    have hs := Steps.of_moves (D := D) (.call c k) hm
    exact ⟨h _ _ hs, fun r u ha => h.steps (hs.tail (.call ha))⟩
  · intro h
    suffices hinv : ∀ x : Prog Op α × σ, Steps D (.call c k, s) x →
        (x.1 = .call c k ∧ D.Moves s x.2) ∨ Safe D W x.1 x.2 Q by
      intro q t hs
      rcases hinv _ hs with ⟨rfl, hm⟩ | hsafe
      · exact (h t hm).1
      · exact hsafe q t .refl
    intro x hs
    induction hs with
    | refl => exact .inl ⟨rfl, .refl⟩
    | @tail y z _ hstep ih =>
      obtain ⟨y₁, y₂⟩ := y
      rcases ih with ⟨rfl, hm⟩ | hsafe
      · cases hstep with
        | call ha => exact .inr ((h _ hm).2 _ _ ha)
        | move _ hd => exact .inl ⟨rfl, hm.tail hd⟩
      · exact .inr (hsafe.steps (.single hstep))

theorem safe_bind_iff {p : Prog Op α} {f : α → Prog Op δ} {s : σ} {Q : δ → σ → Prop} :
    Safe D W (p.bind f) s Q ↔ Safe D W p s fun a t => Safe D W (f a) t Q := by
  constructor
  · intro h q t hs
    have hb := h.steps (hs.bind f)
    cases q with
    | ret a => exact hb
    | call c k => exact hb _ _ .refl
    | loop b body k => exact hb _ _ .refl
  · intro h q t hs
    rcases Steps.of_bind hs with ⟨p', hp, hq⟩ | ⟨a, u, hp, hf⟩
    · have hm := h _ _ hp
      obtain rfl : q = p'.bind f := hq
      cases p' with
      | ret a => exact hm _ _ .refl
      | call c k => exact hm
      | loop b body k => exact hm
    · exact h.result hp _ _ hf

/-- The rule for loops: `Inv` holds at each loop head, whatever the device does there by itself,
and a round of the body takes it to the next head, or to a state from which the rest is safe. -/
theorem Safe.loop (Inv : β → σ → Prop) {b : β} {body : β → Prog Op (β ⊕ γ)} {k : γ → Prog Op α}
    {s : σ} {Q : α → σ → Prop} (h0 : Inv b s)
    (hmove : ∀ b t u, Inv b t → D.move t u → Inv b u)
    (hhead : ∀ b t, Inv b t → W.atLoop t)
    (hbody : ∀ b t, Inv b t →
      Safe D W (body b) t fun x u => x.elim (Inv · u) fun c => Safe D W (k c) u Q) :
    Safe D W (.loop b body k) s Q := by
  -- inside a round, or past the loop
  suffices hinv : ∀ x : Prog Op α × σ, Steps D (.loop b body k, s) x →
      (∃ b', x.1 = .loop b' body k ∧ Inv b' x.2) ∨
      (∃ q, x.1 = q.bind (again body k) ∧
        Safe D W q x.2 fun x u => x.elim (Inv · u) fun c => Safe D W (k c) u Q) ∨
      Safe D W x.1 x.2 Q by
    intro q t hs
    rcases hinv _ hs with ⟨b', rfl, hb⟩ | ⟨q', rfl, hq⟩ | hsafe
    · exact hhead b' t hb
    · have hm := hq q' t .refl
      cases q' with
      | ret x =>
        cases x with
        | inl b' => exact hhead b' t hm
        | inr c => exact hm _ _ .refl
      | call c k => exact hm
      | loop b' body' k' => exact hm
    · exact hsafe q t .refl
  have hhere : ∀ b' t z, Inv b' t → Step D (Prog.loop b' body k, t) z →
      (∃ b', z.1 = .loop b' body k ∧ Inv b' z.2) ∨
      (∃ q, z.1 = q.bind (again body k) ∧
        Safe D W q z.2 fun x u => x.elim (Inv · u) fun c => Safe D W (k c) u Q) := by
    intro b' t z hb hstep
    cases hstep with
    | enter => exact .inr ⟨body b', rfl, hbody b' t hb⟩
    | move _ hd => exact .inl ⟨b', rfl, hmove b' _ _ hb hd⟩
  intro x hs
  induction hs with
  | refl => exact .inl ⟨b, rfl, h0⟩
  | @tail y z _ hstep ih =>
    obtain ⟨y₁, y₂⟩ := y
    obtain ⟨z₁, z₂⟩ := z
    rcases ih with ⟨b', rfl, hb⟩ | ⟨q, rfl, hq⟩ | hsafe
    · exact (hhere b' _ _ hb hstep).imp_right .inl
    · rcases Step.of_bind hstep with ⟨q', hq', rfl⟩ | ⟨x, rfl⟩
      · exact .inr (.inl ⟨q', rfl, hq.steps (.single hq')⟩)
      · have hm := hq.result .refl
        cases x with
        | inl b' => exact (hhere b' _ _ hm hstep).imp_right .inl
        | inr c => exact .inr (.inr (Safe.steps hm (.single hstep)))
    · exact .inr (.inr (hsafe.steps (.single hstep)))

/-! ## The rules as `do` notation needs them -/

theorem safe_bind {p : Prog Op α} {f : α → Prog Op δ} {s : σ} {Q : δ → σ → Prop} :
    Safe D W (p >>= f) s Q ↔ Safe D W p s fun a t => Safe D W (f a) t Q :=
  safe_bind_iff

theorem safe_lift_iff {ρ : Type} {c : Op ρ} {s : σ} {Q : ρ → σ → Prop} :
    Safe D W (liftM c) s Q ↔
      ∀ t, D.Moves s t → W.atCall c t ∧
        ∀ r u, D.answer c t r u → ∀ v, D.Moves u v → Q r v := by
  simp only [lift_eq, safe_call_iff, safe_ret_iff]

theorem safe_pure_iff {a : α} {s : σ} {Q : α → σ → Prop} :
    Safe D W (pure a) s Q ↔ ∀ t, D.Moves s t → Q a t :=
  safe_ret_iff

theorem Safe.repeatM (Inv : β → σ → Prop) {b : β} {body : β → Prog Op (β ⊕ γ)} {s : σ}
    {Q : γ → σ → Prop} (h0 : Inv b s)
    (hmove : ∀ b t u, Inv b t → D.move t u → Inv b u)
    (hhead : ∀ b t, Inv b t → W.atLoop t)
    (hbody : ∀ b t, Inv b t → Safe D W (body b) t fun x u => x.elim (Inv · u) (Q · u))
    (hQ : ∀ c t u, Q c t → D.Moves t u → Q c u) :
    Safe D W (repeatM b body) s Q :=
  Safe.loop Inv h0 hmove hhead fun b t hb => (hbody b t hb).imp fun x u hx => by
    cases x with
    | inl b' => exact hx
    | inr c => exact safe_ret_iff.mpr fun v hv => hQ c u v hx hv

/-! ## Triples

Where the device moves by itself, the assertions between two calls must survive its moves. -/

/-- The device's own moves keep `P`. -/
def Device.Stable (D : Device Op σ) (P : σ → Prop) : Prop := ∀ s t, D.move s t → P s → P t

theorem Device.Stable.moves {P : σ → Prop} (h : D.Stable P) {s t : σ} (hm : D.Moves s t)
    (hs : P s) : P t := by
  induction hm with
  | refl => exact hs
  | tail _ hd ih => exact h _ _ hd ih

def Triple (D : Device Op σ) (W : Watch Op σ) (P : σ → Prop) (p : Prog Op α) (Q : α → σ → Prop) :
    Prop :=
  ∀ s, P s → Safe D W p s Q

namespace Triple
variable {P : σ → Prop} {Q Q' : α → σ → Prop}

theorem pure {a : α} (hP : D.Stable P) (hQ : ∀ s, P s → Q a s) :
    Triple D W P (Pure.pure a) Q :=
  fun _ hs => safe_pure_iff.mpr fun t hm => hQ t (hP.moves hm hs)

theorem bind {p : Prog Op α} {f : α → Prog Op δ} {R : δ → σ → Prop} (hp : Triple D W P p Q)
    (hf : ∀ a, Triple D W (Q a) (f a) R) : Triple D W P (p >>= f) R :=
  fun s hs => safe_bind.mpr ((hp s hs).imp fun a t ht => hf a t ht)

theorem lift {ρ : Type} {c : Op ρ} {R : ρ → σ → Prop} (hP : D.Stable P)
    (hR : ∀ r, D.Stable (R r)) (hW : ∀ t, P t → W.atCall c t)
    (hc : ∀ t r u, P t → D.answer c t r u → R r u) : Triple D W P (liftM c) R :=
  fun _ hs => safe_lift_iff.mpr fun t hm =>
    have ht := hP.moves hm hs
    ⟨hW t ht, fun r u ha _ hv => (hR r).moves hv (hc t r u ht ha)⟩

/-- A call that the device takes no notice of. -/
theorem unchanged {ρ : Type} {c : Op ρ} (hP : D.Stable P) (hW : ∀ t, P t → W.atCall c t)
    (hc : ∀ t r u, D.answer c t r u → u = t) : Triple D W P (liftM c) fun _ => P := by
  apply Triple.lift hP (fun _ => hP) hW
  intro t r u ht ha
  obtain rfl := hc t r u ha
  exact ht

theorem conseq {P' : σ → Prop} {p : Prog Op α} (h : Triple D W P p Q) (hP : ∀ s, P' s → P s)
    (hQ : ∀ a s, Q a s → Q' a s) : Triple D W P' p Q' :=
  fun s hs => (h s (hP s hs)).imp hQ

theorem repeatM (Inv : β → σ → Prop) {body : β → Prog Op (β ⊕ γ)} {b : β} {R : γ → σ → Prop}
    (hInv : ∀ b, D.Stable (Inv b)) (hR : ∀ c, D.Stable (R c)) (hW : ∀ b t, Inv b t → W.atLoop t)
    (hbody : ∀ b, Triple D W (Inv b) (body b) fun x t => x.elim (Inv · t) (R · t)) :
    Triple D W (Inv b) (Prog.repeatM b body) R :=
  fun _ hs => Safe.repeatM Inv hs (fun b t u hb hm => hInv b t u hm hb) hW
    (fun b t hb => hbody b t hb) fun c _ _ hc hm => (hR c).moves hm hc

end Triple

section Quiet
variable [D.Quiet]

@[simp] theorem safe_pure {a : α} {s : σ} {Q : α → σ → Prop} :
    Safe D W (pure a) s Q ↔ Q a s := by
  simp [safe_pure_iff]

@[simp] theorem safe_lift {ρ : Type} {c : Op ρ} {s : σ} {Q : ρ → σ → Prop} :
    Safe D W (liftM c) s Q ↔ W.atCall c s ∧ ∀ r t, D.answer c s r t → Q r t := by
  simp [safe_lift_iff]

theorem safe_loop_quiet {b : β} {body : β → Prog Op (β ⊕ γ)} {k : γ → Prog Op α} {s : σ}
    {Q : α → σ → Prop} :
    Safe D W (.loop b body k) s Q ↔
      W.atLoop s ∧ Safe D W ((body b).bind (again body k)) s Q := by
  constructor
  · intro h
    exact ⟨h _ _ .refl, h.steps (.single (.enter b body k s))⟩
  · rintro ⟨hl, h⟩ q t hs
    rcases Relation.ReflTransGen.cases_head hs with heq | ⟨z, hz, hs'⟩
    · cases heq
      exact hl
    · cases hz with
      | enter => exact h q t hs'
      | move _ hm => exact (Device.Quiet.still _ _ hm).elim

/-- One round of a loop, read off. -/
theorem safe_repeatM_quiet {b : β} {body : β → Prog Op (β ⊕ γ)} {s : σ} {Q : γ → σ → Prop} :
    Safe D W (Prog.repeatM b body) s Q ↔ W.atLoop s ∧ Safe D W (body b) s fun x t =>
      x.elim (fun b' => Safe D W (Prog.repeatM b' body) t Q) (Q · t) := by
  rw [Prog.repeatM, safe_loop_quiet, safe_bind_iff]
  have hrest : (fun x t => Safe D W (again body ret x) t Q) = fun x t =>
      x.elim (fun b' => Safe D W (Prog.repeatM b' body) t Q) (Q · t) := by
    funext x t
    cases x with
    | inl b' => rfl
    | inr c => exact propext safe_pure
  rw [hrest]

theorem Safe.repeatM_quiet (Inv : β → σ → Prop) {b : β} {body : β → Prog Op (β ⊕ γ)} {s : σ}
    {Q : γ → σ → Prop} (h0 : Inv b s) (hhead : ∀ b t, Inv b t → W.atLoop t)
    (hbody : ∀ b t, Inv b t → Safe D W (body b) t fun x u => x.elim (Inv · u) (Q · u)) :
    Safe D W (Prog.repeatM b body) s Q :=
  Safe.repeatM Inv h0 (fun _ _ _ _ hm => (Device.Quiet.still _ _ hm).elim) hhead hbody
    fun _ _ _ hq hm => hm.eq ▸ hq

end Quiet
end Interaction
