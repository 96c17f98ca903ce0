import Mathlib.Data.List.Basic

/-!
# Channels

A channel with a buffer. What is sent is received in the order it was sent, and a closed channel
can be received from until its buffer is empty.
-/

namespace Go

/-- A channel, with no more in its buffer than its capacity. -/
structure Channel (α : Type*) where
  cap : ℕ
  buffer : List α := []
  closed : Bool := false
  length_le : buffer.length ≤ cap

namespace Channel

variable {α : Type*}

/-- `close`. -/
def close (c : Channel α) : Channel α := { c with closed := true }

/-- A send to the buffer; `none` if it blocks, or panics as the channel is closed. -/
def send (a : α) (c : Channel α) : Option (Channel α) :=
  if h : c.closed = false ∧ c.buffer.length < c.cap then
    some { c with
      buffer := c.buffer ++ [a]
      length_le := by
        rw [List.length_append, List.length_singleton]
        exact h.2 }
  else none

/-- A receive from the buffer: what it gets, where `none` is for the end of a closed channel, and
    the channel. It is `none` if it blocks. -/
def recv (c : Channel α) : Option (Option α × Channel α) :=
  match h : c.buffer with
  | a :: rest => some (some a, { c with
      buffer := rest
      length_le := by
        have hle := c.length_le
        rw [h, List.length_cons] at hle
        exact Nat.le_of_succ_le hle })
  | [] => if c.closed then some (none, c) else none

variable {c c' : Channel α} {a : α}

theorem buffer_of_send (h : c.send a = some c') : c'.buffer = c.buffer ++ [a] := by
  unfold send at h
  split_ifs at h
  cases h
  rfl

theorem buffer_of_recv (h : c.recv = some (some a, c')) : c.buffer = a :: c'.buffer := by
  unfold recv at h
  split at h
  · rename_i hbuffer
    cases h
    exact hbuffer
  · split_ifs at h
    cases h

theorem exists_recv (h : c.buffer ≠ []) : ∃ a c', c.recv = some (some a, c') := by
  unfold recv
  split
  · exact ⟨_, _, rfl⟩
  · rename_i hbuffer
    exact absurd hbuffer h

end Channel

end Go
