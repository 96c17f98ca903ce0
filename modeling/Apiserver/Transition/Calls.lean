import Mathlib.Data.List.Basic

/-!
# Calls that are passed on

A component passes some of its calls on to another one. The calls of the other are then what
a partial function keeps of the calls of the first, and a call that is passed on has a place
among them (`pos`), which grows with its place among all calls.
-/

namespace Transition

variable {α β : Type*} (f : α → Option β) (l : List α)

/-- How many of the calls before one are passed on. -/
def pos (i : ℕ) : ℕ := ((l.take i).filterMap f).length

variable {f l} {i j k : ℕ} {a : α} {b : β}

end Transition
