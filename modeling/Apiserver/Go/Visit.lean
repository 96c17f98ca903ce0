import Mathlib.Data.List.Basic

/-!
# Visitors

A Go *visitor* is a callback a loop calls on every element it comes by; it
updates the variables it captured and returns whether to go on. Once it returns
`false`, the loop, and every loop around it, returns (`visit`).

* `visit_flatMap`: a loop nested in a loop visits the concatenation of the
  inner lists, also when it is cut short;
* `visitOption_eq_some`, `visitOption_of_skip`: a loop whose body may panic.
-/

namespace Go

variable {α β σ : Type*}

/-- A loop calling the visitor `f`, whose captured variables are `s`, on the
    elements of a list. The result is whether the loop went through, and the
    variables at its end. -/
def visit (f : σ → α → Bool × σ) : List α → σ → Bool × σ
  | [], s => (true, s)
  | a :: l, s => match f s a with
    | (true, s') => visit f l s'
    | (false, s') => (false, s')

/-- Going on with the loop `k` if the one before went through. -/
def andThen (r : Bool × σ) (k : σ → Bool × σ) : Bool × σ :=
  match r with
  | (true, s) => k s
  | (false, s) => (false, s)

@[simp] theorem andThen_true (s : σ) (k : σ → Bool × σ) : andThen (true, s) k = k s := rfl

@[simp] theorem andThen_false (s : σ) (k : σ → Bool × σ) : andThen (false, s) k = (false, s) := rfl

variable (f : σ → α → Bool × σ)

theorem visit_cons (a : α) (l : List α) (s : σ) :
    visit f (a :: l) s = andThen (f s a) (visit f l) := rfl

@[simp] theorem visit_singleton (a : α) (s : σ) : visit f [a] s = f s a := by
  rw [visit_cons]
  rcases f s a with ⟨_ | _, s'⟩ <;> rfl

theorem visit_append (l l' : List α) (s : σ) :
    visit f (l ++ l') s = andThen (visit f l s) (visit f l') := by
  induction l generalizing s with
  | nil => rfl
  | cons a l ih =>
    rw [List.cons_append, visit_cons, visit_cons]
    rcases f s a with ⟨_ | _, s'⟩
    · rfl
    · exact ih s'

theorem visit_map (g : β → α) (l : List β) (s : σ) :
    visit f (l.map g) s = visit (fun s b => f s (g b)) l s := by
  induction l generalizing s with
  | nil => rfl
  | cons b l ih =>
    rw [List.map_cons, visit_cons, visit_cons]
    exact congrArg (andThen (f s (g b))) (funext ih)

/-- A nested loop is a loop over the concatenation of the inner lists. -/
theorem visit_flatMap (g : β → List α) (l : List β) (s : σ) :
    visit (fun s b => visit f (g b) s) l s = visit f (l.flatMap g) s := by
  induction l generalizing s with
  | nil => rfl
  | cons b l ih =>
    rw [List.flatMap_cons, visit_cons, visit_append]
    exact congrArg (andThen (visit f (g b) s)) (funext ih)

/-! ## Bodies that panic -/

/-- A loop whose body may panic, so that no variables are left. -/
def visitOption (f : σ → α → Option (Bool × σ)) : List α → σ → Option (Bool × σ)
  | [], s => some (true, s)
  | a :: l, s => match f s a with
    | none => none
    | some (true, s') => visitOption f l s'
    | some (false, s') => some (false, s')

/-- A body that does not panic. -/
theorem visitOption_eq_some {g : σ → α → Option (Bool × σ)} (h : ∀ s a, g s a = some (f s a))
    (l : List α) (s : σ) : visitOption g l s = some (visit f l s) := by
  induction l generalizing s with
  | nil => rfl
  | cons a l ih =>
    rw [visitOption, visit, h]
    rcases f s a with ⟨_ | _, s'⟩
    · rfl
    · exact ih s'

/-- A body that panics on some elements, and skips the others. -/
theorem visitOption_of_skip {g : σ → α → Option (Bool × σ)} {P : α → Prop} [DecidablePred P]
    (h : ∀ s a, g s a = if P a then none else some (true, s)) (l : List α) (s : σ) :
    visitOption g l s = if ∃ a ∈ l, P a then none else some (true, s) := by
  induction l with
  | nil => simp [visitOption]
  | cons a l ih =>
    rw [visitOption, h]
    by_cases ha : P a
    · simp [ha]
    · simp [ha, ih]

end Go
