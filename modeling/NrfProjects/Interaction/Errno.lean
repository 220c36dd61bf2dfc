import Mathlib.Data.Int.Notation

/-! # Error codes

C interfaces answer with a number that is negative exactly when the call failed. -/

namespace Interaction
set_option autoImplicit false

structure Errno where
  code : ℤ
  neg : code < 0

namespace Errno

def ioError : Errno := ⟨-5, by decide⟩

theorem code_ne_zero (e : Errno) : e.code ≠ 0 := Int.ne_of_lt e.neg

theorem not_pos (e : Errno) : ¬ 0 < e.code := Int.not_lt.mpr (Int.le_of_lt e.neg)

end Errno
end Interaction
