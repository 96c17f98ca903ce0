import Mathlib.Data.Nat.Basic
import Mathlib.Logic.Relation

/-!
# Transition systems

A transition system is given by its initial states and its steps. Concurrent
programs are such systems: the state holds what the threads share and where each
of them is, and a step is one of any thread, so that the runs are all the
interleavings.

* `Invariant.reachable`: what holds initially and is preserved by every step
  holds in every reachable state;
* `Invariant.and`: an invariant may be shown with the help of another;
* `exists_run_of_measure`: a goal can be reached if, as long as it is not, some
  step lowers a measure.
-/

namespace Transition

/-- A transition system. -/
structure System (σ : Type*) where
  init : σ → Prop
  step : σ → σ → Prop

namespace System

variable {σ : Type*} (S : System σ)

/-- A run takes one state to another. -/
abbrev Run : σ → σ → Prop := Relation.ReflTransGen S.step

/-- A run from an initial state leads to the state. -/
def Reachable (s : σ) : Prop := ∃ s₀, S.init s₀ ∧ S.Run s₀ s

/-- What holds initially, and is preserved by every step. -/
structure Invariant (I : σ → Prop) : Prop where
  init : ∀ s, S.init s → I s
  step : ∀ s t, I s → S.step s t → I t

variable {S} {I J P : σ → Prop} {s t : σ}

theorem Reachable.of_init (h : S.init s) : S.Reachable s := ⟨s, h, .refl⟩

theorem Reachable.run (h : S.Reachable s) (hrun : S.Run s t) : S.Reachable t := by
  obtain ⟨s₀, hinit, hs⟩ := h
  exact ⟨s₀, hinit, hs.trans hrun⟩

theorem Reachable.step (h : S.Reachable s) (hstep : S.step s t) : S.Reachable t :=
  h.run (.single hstep)

theorem Invariant.run (h : S.Invariant I) (hs : I s) (hrun : S.Run s t) : I t := by
  induction hrun with
  | refl => exact hs
  | tail _ hstep ih => exact h.step _ _ ih hstep

theorem Invariant.reachable (h : S.Invariant I) (hs : S.Reachable s) : I s := by
  obtain ⟨s₀, hinit, hrun⟩ := hs
  exact h.run (h.init s₀ hinit) hrun

/-- An invariant shown with the help of another. -/
theorem Invariant.and (h : S.Invariant I) (hinit : ∀ s, S.init s → J s)
    (hstep : ∀ s t, I s → J s → S.step s t → J t) : S.Invariant fun s => I s ∧ J s where
  init s hs := ⟨h.init s hs, hinit s hs⟩
  step s t hs hst := ⟨h.step s t hs.1 hst, hstep s t hs.1 hs.2 hst⟩

/-- A goal can be reached if, as long as it is not, some step lowers a measure. -/
theorem exists_run_of_measure (m : σ → ℕ)
    (h : ∀ s, I s → ¬ P s → ∃ t, S.step s t ∧ I t ∧ m t < m s) (hs : I s) :
    ∃ t, S.Run s t ∧ I t ∧ P t := by
  induction hn : m s using Nat.strongRecOn generalizing s with
  | _ n ih =>
    by_cases hP : P s
    · exact ⟨s, .refl, hs, hP⟩
    · obtain ⟨t, hst, ht, hlt⟩ := h s hs hP
      obtain ⟨u, htu, hu⟩ := ih (m t) (hn ▸ hlt) ht rfl
      exact ⟨u, .head hst htu, hu⟩

end System

end Transition
