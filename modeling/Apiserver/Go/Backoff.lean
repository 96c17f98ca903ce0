import Mathlib.Algebra.Order.Ring.Int
import Mathlib.Logic.Function.Iterate

/-!
# Retrying with a backoff

`wait.ExponentialBackoffWithContext` calls a condition until it is met or fails,
waiting longer and longer in between. It gives up when the steps of the backoff
are used up, when the duration of the wait has reached its cap, or when the
context is done, which it checks before every call and while it waits.

The condition is a closure. What it captures is a state `σ`, which a call
changes.

* `Backoff.limit`: the number of calls the backoff and the context leave;
* `exponentialBackoffWithContext_spec`: the condition is called again and again
  up to the limit, as long as it asks for it.
-/

namespace Go

/-- A `context.Context`: its `Err()`, each time it is looked at. -/
abbrev Context := ℕ → Option String

/-- `context.Background()`. -/
def Context.background : Context := fun _ => none

/-- A `wait.Backoff`, as far as the number of calls goes. -/
structure Backoff where
  steps : ℤ
  /-- Whether the duration passes the cap when it is raised for the `n`th time:
      then no steps are left. -/
  capped : ℕ → Bool := fun _ => false

/-- `ErrWaitTimeout`. -/
def errWaitTimeout : String := "timed out waiting for the condition"

variable {σ : Type}

/-- The loop, with the number of steps that are left, and of calls that have been
    made. -/
def backoffLoop (ctx : Context) (capped : ℕ → Bool)
    (condition : σ → σ × Bool × Option String) : ℕ → ℕ → σ → σ × Option String
  | 0, _, s => (s, some errWaitTimeout)
  | steps + 1, n, s =>
    match ctx (2 * n) with
    | some err => (s, some err)
    | none => match condition s with
      | (s, _, some err) => (s, some err)
      | (s, true, none) => (s, none)
      | (s, false, none) =>
        if steps = 0 then (s, some errWaitTimeout)
        else match ctx (2 * n + 1) with
          | some err => (s, some err)
          | none =>
            if capped n then (s, some errWaitTimeout)
            else backoffLoop ctx capped condition steps (n + 1) s

/-- `wait.ExponentialBackoffWithContext`: what the condition has captured in the
    end, and the error. -/
def exponentialBackoffWithContext (ctx : Context) (backoff : Backoff)
    (condition : σ → σ × Bool × Option String) (s : σ) : σ × Option String :=
  backoffLoop ctx backoff.capped condition backoff.steps.toNat 0 s

/-! ## The number of calls -/

/-- The number of calls that are left, with the number of steps that are left and
    of calls that have been made. -/
def limitLoop (ctx : Context) (capped : ℕ → Bool) : ℕ → ℕ → ℕ
  | 0, _ => 0
  | steps + 1, n =>
    if (ctx (2 * n)).isSome then 0
    else if steps = 0 ∨ (ctx (2 * n + 1)).isSome ∨ capped n then 1
    else limitLoop ctx capped steps (n + 1) + 1

/-- The number of calls a backoff and a context leave. -/
def Backoff.limit (backoff : Backoff) (ctx : Context) : ℕ :=
  limitLoop ctx backoff.capped backoff.steps.toNat 0

/-- A call is left exactly when there is a step, and the context is not done. -/
theorem Backoff.limit_pos {backoff : Backoff} {ctx : Context} :
    0 < backoff.limit ctx ↔ 0 < backoff.steps ∧ ctx 0 = none := by
  have hsteps : 0 < backoff.steps ↔ 0 < backoff.steps.toNat := by omega
  rw [Backoff.limit, hsteps]
  cases backoff.steps.toNat with
  | zero => simp [limitLoop]
  | succ steps =>
    rw [limitLoop]
    cases hctx : ctx (2 * 0) with
    | some err => simp_all
    | none =>
      have : ctx 0 = none := hctx
      split_ifs <;> simp_all

/-- The condition has been called `k` times, of at most `limit`, on what it
    captured: `s`, and what it made of it. -/
structure Called (condition : σ → σ × Bool × Option String) (limit : ℕ) (s : σ) (k : ℕ)
    (out : σ × Option String) : Prop where
  le_limit : k ≤ limit
  state : out.1 = (fun s => (condition s).1)^[k] s
  /-- All calls but the last asked for another one. -/
  retried : ∀ i, i + 1 < k → (condition ((fun s => (condition s).1)^[i] s)).2 = (false, none)
  /-- If there could have been more calls, the last did not ask for one. -/
  stopped : k < limit → ∃ i, k = i + 1 ∧
    (condition ((fun s => (condition s).1)^[i] s)).2 ≠ (false, none)
  err : out.2 = none ↔ ∃ i, k = i + 1 ∧
    (condition ((fun s => (condition s).1)^[i] s)).2 = (true, none)

section

variable {condition : σ → σ × Bool × Option String} {limit k : ℕ} {s : σ}
  {out : σ × Option String}

/-- No call is made. -/
theorem Called.zero (err : String) : Called condition 0 s 0 (s, some err) where
  le_limit := le_rfl
  state := rfl
  retried i hi := absurd hi (by omega)
  stopped h := absurd h (lt_irrefl 0)
  err := by simp

/-- One call is made, which does not ask for another or is the last that is left. -/
theorem Called.one (hlimit : 0 < limit)
    (hstop : (condition s).2 ≠ (false, none) ∨ limit = 1) {err : Option String}
    (herr : err = none ↔ (condition s).2 = (true, none)) :
    Called condition limit s 1 ((condition s).1, err) where
  le_limit := hlimit
  state := rfl
  retried i hi := absurd hi (by omega)
  stopped h := ⟨0, rfl, hstop.resolve_right (by omega)⟩
  err := by
    rw [herr]
    constructor
    · exact fun h => ⟨0, rfl, h⟩
    · rintro ⟨i, hi, h⟩
      cases Nat.succ.inj hi
      exact h

/-- One call is made, which asks for another that is not left. -/
theorem Called.last (hretry : (condition s).2 = (false, none)) (err : String) :
    Called condition 1 s 1 ((condition s).1, some err) :=
  .one Nat.one_pos (.inr rfl) (by simp [hretry])

/-- A call that asks for another is followed by the rest. -/
theorem Called.succ (hretry : (condition s).2 = (false, none))
    (h : Called condition limit (condition s).1 k out) :
    Called condition (limit + 1) s (k + 1) out where
  le_limit := Nat.succ_le_succ h.le_limit
  state := h.state
  retried i hi := by
    cases i with
    | zero => exact hretry
    | succ i => exact h.retried i (by omega)
  stopped hlt := by
    obtain ⟨i, hi, hstop⟩ := h.stopped (by omega)
    exact ⟨i + 1, by omega, hstop⟩
  err := by
    rw [h.err]
    constructor
    · rintro ⟨i, hi, hok⟩
      exact ⟨i + 1, by omega, hok⟩
    · rintro ⟨i, hi, hok⟩
      cases i with
      | zero =>
        have hok : (condition s).2 = (true, none) := hok
        rw [hretry] at hok
        cases hok
      | succ i => exact ⟨i, by omega, hok⟩

end

/-- The calls of the loop, whatever the steps that are left. -/
theorem backoffLoop_called (ctx : Context) (capped : ℕ → Bool)
    (condition : σ → σ × Bool × Option String) (steps n : ℕ) (s : σ) :
    ∃ k, Called condition (limitLoop ctx capped steps n) s k
      (backoffLoop ctx capped condition steps n s) := by
  induction steps generalizing n s with
  | zero => exact ⟨0, .zero errWaitTimeout⟩
  | succ steps ih =>
    rw [backoffLoop, limitLoop]
    cases hctx : ctx (2 * n) with
    | some err => exact ⟨0, .zero err⟩
    | none =>
      have hpos : 0 < if steps = 0 ∨ (ctx (2 * n + 1)).isSome ∨ capped n then 1
          else limitLoop ctx capped steps (n + 1) + 1 := by
        split_ifs <;> omega
      rw [if_neg (by simp)]
      obtain ⟨⟨s', done, err⟩, hcond⟩ : ∃ out, condition s = out := ⟨_, rfl⟩
      have hs' : s' = (condition s).1 := by rw [hcond]
      have hverdict : (condition s).2 = (done, err) := by rw [hcond]
      rw [hcond]
      cases err with
      | some err =>
        subst hs'
        exact ⟨1, .one hpos (.inl (by simp [hverdict])) (by simp [hverdict])⟩
      | none =>
        cases done with
        | true =>
          subst hs'
          exact ⟨1, .one hpos (.inl (by simp [hverdict])) (by simp [hverdict])⟩
        | false =>
          dsimp only
          subst hs'
          -- The condition asks for another call: the three reasons not to make it.
          by_cases hsteps : steps = 0
          · rw [if_pos hsteps, if_pos (.inl hsteps)]
            exact ⟨1, .last hverdict _⟩
          · rw [if_neg hsteps]
            cases hwait : ctx (2 * n + 1) with
            | some err =>
              rw [if_pos (.inr (.inl rfl))]
              exact ⟨1, .last hverdict _⟩
            | none =>
              dsimp only
              by_cases hcap : capped n = true
              · rw [if_pos hcap, if_pos (.inr (.inr hcap))]
                exact ⟨1, .last hverdict _⟩
              · rw [if_neg hcap, if_neg (by simp [hsteps, hcap])]
                obtain ⟨k, hk⟩ := ih (n + 1) (condition s).1
                exact ⟨k + 1, hk.succ hverdict⟩

/-- The condition is called again and again up to the limit, as long as it asks
    for it. -/
theorem exponentialBackoffWithContext_spec (ctx : Context) (backoff : Backoff)
    (condition : σ → σ × Bool × Option String) (s : σ) :
    ∃ k, Called condition (backoff.limit ctx) s k
      (exponentialBackoffWithContext ctx backoff condition s) :=
  backoffLoop_called ctx backoff.capped condition backoff.steps.toNat 0 s

end Go
