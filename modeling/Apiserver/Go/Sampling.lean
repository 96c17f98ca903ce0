import Mathlib.Logic.Equiv.Basic

/-!
# Sampling with rejection

A stream of random elements is read, of which some are rejected, until enough values have been
drawn from the others. If every two values are drawn from elements that can be exchanged for each
other, then all lists of values are equally likely: the streams for one of them are the streams
for any other one, up to a permutation of the streams of each length
(`Exchange.exists_perm`).
-/

namespace Go.Sampling

variable {α β : Type*} (accept : β → Option α)

/-- The first value, and the rest of the stream; `none` at the end of the stream. -/
def next : List β → Option (α × List β)
  | [] => none
  | b :: stream =>
    match accept b with
    | some a => some (a, stream)
    | none => next stream

/-- A number of values. -/
def draw : ℕ → List β → Option (List α)
  | 0, _ => some []
  | n + 1, stream =>
    match next accept stream with
    | some (a, stream) => (draw n stream).map (a :: ·)
    | none => none

variable {accept} {b : β} {stream : List β} {n : ℕ} {a : α}

theorem next_cons_of_none (h : accept b = none) :
    next accept (b :: stream) = next accept stream := by
  rw [next, h]

theorem next_cons_of_some (h : accept b = some a) :
    next accept (b :: stream) = some (a, stream) := by
  rw [next, h]

theorem draw_succ_nil : draw accept (n + 1) [] = none := rfl

/-- An element that is rejected is skipped, -/
theorem draw_succ_cons_of_none (h : accept b = none) :
    draw accept (n + 1) (b :: stream) = draw accept (n + 1) stream := by
  rw [draw, next_cons_of_none h, draw]

/-- and another one gives the next value. -/
theorem draw_succ_cons_of_some (h : accept b = some a) :
    draw accept (n + 1) (b :: stream) = (draw accept n stream).map (a :: ·) := by
  rw [draw, next_cons_of_some h]

theorem length_of_draw {l : List α} (h : draw accept n stream = some l) : l.length = n := by
  induction n generalizing stream l with
  | zero =>
    cases h
    rfl
  | succ n ih =>
    rw [draw] at h
    split at h
    · obtain ⟨l', hl', rfl⟩ := Option.map_eq_some_iff.1 h
      rw [List.length_cons, ih hl']
    · cases h

theorem map_cons_eq_some {x : Option (List α)} {c : α} {l : List α} :
    x.map (c :: ·) = some (a :: l) ↔ c = a ∧ x = some l := by
  cases x with
  | none => simp
  | some l' => simp

/-! ## Exchanging values -/

variable [DecidableEq α]

/-- For every two values, the elements they are drawn from can be exchanged for each other. -/
structure Exchange (accept : β → Option α) where
  swap : α → α → β → β
  swap_swap : ∀ a a' b, swap a a' (swap a a' b) = b
  accept_swap : ∀ a a' b, accept (swap a a' b) = (accept b).map (Equiv.swap a a')

variable (e : Exchange accept)

/-- The values of one list are exchanged for those of another one in a stream. -/
def Exchange.relabel : List α → List α → List β → List β
  | a :: l, a' :: l', b :: s =>
    e.swap a a' b ::
      if (accept b).isSome then relabel l l' s else relabel (a :: l) (a' :: l') s
  | _, _, s => s

theorem Exchange.isSome_accept_swap (a a' : α) (b : β) :
    (accept (e.swap a a' b)).isSome = (accept b).isSome := by
  rw [e.accept_swap, Option.isSome_map]

/-- Relabelling twice changes nothing. -/
theorem Exchange.relabel_relabel (l l' : List α) (s : List β) :
    e.relabel l l' (e.relabel l l' s) = s := by
  induction s generalizing l l' with
  | nil => cases l <;> cases l' <;> rfl
  | cons b s ih =>
    cases l with
    | nil => rfl
    | cons a l =>
      cases l' with
      | nil => rfl
      | cons a' l' =>
        rw [relabel, relabel, e.isSome_accept_swap, e.swap_swap]
        split_ifs
        · rw [ih]
        · rw [ih]

theorem Exchange.length_relabel (l l' : List α) (s : List β) :
    (e.relabel l l' s).length = s.length := by
  induction s generalizing l l' with
  | nil => cases l <;> cases l' <;> rfl
  | cons b s ih =>
    cases l with
    | nil => rfl
    | cons a l =>
      cases l' with
      | nil => rfl
      | cons a' l' =>
        rw [relabel, List.length_cons, List.length_cons]
        split_ifs
        · rw [ih]
        · rw [ih]

/-- Relabelled bytes draw the one list where the others drew the other. -/
theorem Exchange.draw_relabel {l l' : List α} (hlength : l.length = l'.length) (s : List β) :
    draw accept l.length (e.relabel l l' s) = some l' ↔ draw accept l.length s = some l := by
  induction s generalizing l l' with
  | nil =>
    cases l with
    | nil =>
      cases List.length_eq_zero_iff.1 hlength.symm
      rfl
    | cons a l => simp [relabel, draw_succ_nil]
  | cons b s ih =>
    cases l with
    | nil =>
      cases List.length_eq_zero_iff.1 hlength.symm
      rfl
    | cons a l =>
      cases l' with
      | nil => simp at hlength
      | cons a' l' =>
        have haccept := e.accept_swap a a' b
        have hlength' : l.length = l'.length := by simpa using hlength
        rw [relabel, List.length_cons]
        cases hb : accept b with
        | none =>
          rw [hb] at haccept
          simp only [Option.isSome_none, Bool.false_eq_true, if_false]
          rw [draw_succ_cons_of_none haccept, draw_succ_cons_of_none hb]
          exact ih hlength
        | some c =>
          rw [hb] at haccept
          simp only [Option.isSome_some, if_true]
          rw [draw_succ_cons_of_some haccept, draw_succ_cons_of_some hb]
          -- The first value of one list is exchanged for that of the other one, and the rest is
          -- by induction.
          have hfirst : Equiv.swap a a' c = a' ↔ c = a := by
            rw [← Equiv.eq_symm_apply, Equiv.symm_swap, Equiv.swap_apply_right]
          rw [map_cons_eq_some, map_cons_eq_some, hfirst, ih hlength']

/-- All lists of values are equally likely. -/
theorem Exchange.exists_perm (e : Exchange accept) {l l' : List α}
    (hlength : l.length = l'.length) :
    ∃ σ : Equiv.Perm (List β), (∀ s, (σ s).length = s.length) ∧
      ∀ s, draw accept l.length s = some l ↔ draw accept l.length (σ s) = some l' :=
  ⟨Function.Involutive.toPerm (e.relabel l l') (e.relabel_relabel l l'), e.length_relabel l l',
    fun s => (e.draw_relabel hlength s).symm⟩

end Go.Sampling
