import Mathlib.Logic.Relation

/-! # Programs that call an external interface

`Prog Op α` is a program that computes an `α` and does everything else by calls: an `Op ρ` names a
call together with the type `ρ` of its answer. What a call does is not part of the program (see
`Execution.lean`), so one program can be run against a device that never fails, one that fails at
will, or one that loses power between two calls.

* `Prog.ret`, `Prog.call`, `Prog.loop`: end, make one call, repeat a body until it breaks.
* `Prog.bind` and the `Monad` instance: sequencing, so that programs are written in `do` notation;
  a call `c : Op ρ` stands for the program that makes it.
* `Prog.repeatM`: a loop as a program; its body answers `Sum.inl` to go round again with a new
  loop variable and `Sum.inr` to leave.
-/

namespace Interaction
set_option autoImplicit false

inductive Prog (Op : Type → Type) : Type → Type 1
  | ret {α : Type} (a : α) : Prog Op α
  | call {α ρ : Type} (c : Op ρ) (k : ρ → Prog Op α) : Prog Op α
  | loop {α β γ : Type} (b : β) (body : β → Prog Op (β ⊕ γ)) (k : γ → Prog Op α) : Prog Op α

namespace Prog
variable {Op : Type → Type} {α β γ δ : Type}

/-! ## Sequencing -/

def bind {α δ : Type} : Prog Op α → (α → Prog Op δ) → Prog Op δ
  | ret a, f => f a
  | call c k, f => call c fun r => (k r).bind f
  | loop b body k, f => loop b body fun c => (k c).bind f

instance : Monad (Prog Op) where
  pure := ret
  bind := bind

instance : MonadLift Op (Prog Op) where
  monadLift c := call c ret

/-- Repeat `body` from loop variable `b` until it answers `Sum.inr`. -/
def repeatM (b : β) (body : β → Prog Op (β ⊕ γ)) : Prog Op γ := loop b body ret

/-- What follows one round of a loop: the next round, or the code after the loop. -/
def again (body : β → Prog Op (β ⊕ γ)) (k : γ → Prog Op α) : β ⊕ γ → Prog Op α
  | .inl b => loop b body k
  | .inr c => k c

@[simp] theorem call_bind {ρ : Type} (c : Op ρ) (k : ρ → Prog Op α) (f : α → Prog Op δ) :
    (call c k).bind f = call c fun r => (k r).bind f := rfl

@[simp] theorem loop_bind (b : β) (body : β → Prog Op (β ⊕ γ)) (k : γ → Prog Op α)
    (f : α → Prog Op δ) : (loop b body k).bind f = loop b body fun c => (k c).bind f := rfl

theorem bind_bind (p : Prog Op α) (f : α → Prog Op β) (g : β → Prog Op γ) :
    (p.bind f).bind g = p.bind fun a => (f a).bind g := by
  induction p with
  | ret a => rfl
  | call c k ih => simp only [call_bind, ih]
  | loop b body k _ ih => simp only [loop_bind, ih]

theorem again_bind (body : β → Prog Op (β ⊕ γ)) (k : γ → Prog Op α) (f : α → Prog Op δ)
    (x : β ⊕ γ) : (again body k x).bind f = again body (fun c => (k c).bind f) x := by
  cases x <;> rfl

/-- One round of a loop inside a sequence is one round of the loop of the whole sequence. -/
theorem round_bind (b : β) (body : β → Prog Op (β ⊕ γ)) (k : γ → Prog Op α) (f : α → Prog Op δ) :
    ((body b).bind (again body k)).bind f =
      (body b).bind (again body fun c => (k c).bind f) := by
  rw [bind_bind]
  congr 1
  funext x
  exact again_bind body k f x

theorem lift_eq {ρ : Type} (c : Op ρ) : (liftM c : Prog Op ρ) = call c ret := rfl

/-! ## Program points -/

/-- The program stands at the head of a loop. -/
def AtLoop : Prog Op α → Prop
  | loop _ _ _ => True
  | _ => False

instance (p : Prog Op α) : Decidable p.AtLoop :=
  match p with
  | ret _ => .isFalse id
  | call _ _ => .isFalse id
  | loop _ _ _ => .isTrue trivial

/-- The program is about to make the call `c`. -/
def Calls {ρ : Type} (c : Op ρ) (p : Prog Op α) : Prop := ∃ k, p = call c k

end Prog
end Interaction
