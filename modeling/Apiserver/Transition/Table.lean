import Mathlib.Data.List.Basic

/-!
# Tables of threads

The threads of a concurrent program are kept in a list, where a thread is its
index: new ones come at the end, and a step replaces an entry. After either, an
entry is the new one, or was there before.
-/

namespace Transition

variable {α : Type*} {l : List α} {i j : ℕ} {a b : α}

theorem eq_or_of_getElem?_set (h : (l.set i a)[j]? = some b) :
    (j = i ∧ b = a) ∨ (j ≠ i ∧ l[j]? = some b) := by
  rw [List.getElem?_set] at h
  split_ifs at h with hij
  · exact .inl ⟨hij.symm, (Option.some.inj h).symm⟩
  · exact .inr ⟨Ne.symm hij, h⟩

theorem eq_or_of_getElem?_concat (h : (l ++ [a])[j]? = some b) :
    l[j]? = some b ∨ (j = l.length ∧ b = a) := by
  rcases Nat.lt_or_ge j l.length with hlt | hge
  · exact .inl (by rwa [List.getElem?_append_left hlt] at h)
  · rw [List.getElem?_append_right hge, List.getElem?_singleton] at h
    split_ifs at h with hzero
    exact .inr ⟨by omega, (Option.some.inj h).symm⟩

theorem getElem?_concat_of_some (h : l[j]? = some b) : (l ++ [a])[j]? = some b := by
  rwa [List.getElem?_append_left (List.getElem?_eq_some_iff.1 h).1]

theorem getElem?_set_of_some (h : l[i]? = some b) : (l.set i a)[i]? = some a :=
  List.getElem?_set_self (List.getElem?_eq_some_iff.1 h).1

theorem set_of_getElem?_eq_some (h : l[i]? = some a) : l.set i a = l := by
  refine List.ext_getElem? fun j => ?_
  by_cases hij : i = j
  · rw [← hij, getElem?_set_of_some h, h]
  · rw [List.getElem?_set_ne hij]

/-- How a count changes when an entry is replaced. -/
theorem countP_set_of_some (p : α → Bool) (h : l[i]? = some b) :
    (l.set i a).countP p + (if p b then 1 else 0) = l.countP p + (if p a then 1 else 0) := by
  induction l generalizing i with
  | nil => cases h
  | cons c l ih =>
    cases i with
    | zero =>
      cases h
      rw [List.set_cons_zero, List.countP_cons, List.countP_cons]
      omega
    | succ i =>
      have hl := ih h
      rw [List.set_cons_succ, List.countP_cons, List.countP_cons]
      omega

end Transition
