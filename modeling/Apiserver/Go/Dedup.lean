import Mathlib.Data.List.Nodup
import Mathlib.Data.List.Pairwise

/-!
# Removing duplicates

The loop that appends an element to a new slice unless it is found there
already (`dedup`), and what it is for: the first occurrences of a list, in order
(`FirstOccurrences`). The loop computes them (`firstOccurrences_dedup`), by one
round of it (`FirstOccurrences.appendMissing`) after another; only a list without
duplicates is its own list of first occurrences (`firstOccurrences_self_iff`).
-/

namespace Go

variable {α : Type} [DecidableEq α]

/-- The body of the loop: `x` is appended unless it is found. -/
def appendMissing (acc : List α) (x : α) : List α :=
  if acc.any (· == x) then acc else acc ++ [x]

/-- The loop over `l`. -/
def dedup (l : List α) : List α := l.foldl appendMissing []

/-- `l'` has the elements of `l`, each once, in the order in which they first
    occur in `l`. -/
structure FirstOccurrences (l l' : List α) : Prop where
  nodup : l'.Nodup
  mem_iff : ∀ x, x ∈ l' ↔ x ∈ l
  order : l'.Pairwise fun x y => l.idxOf x < l.idxOf y

theorem appendMissing_of_mem {acc : List α} {x : α} (h : x ∈ acc) : appendMissing acc x = acc :=
  if_pos (by simpa using h)

theorem appendMissing_of_notMem {acc : List α} {x : α} (h : x ∉ acc) :
    appendMissing acc x = acc ++ [x] :=
  if_neg (by simpa using h)

theorem mem_appendMissing {acc : List α} {x y : α} : y ∈ appendMissing acc x ↔ y ∈ acc ∨ y = x := by
  by_cases hx : x ∈ acc
  · rw [appendMissing_of_mem hx]
    exact ⟨.inl, fun hy => hy.elim id fun heq => heq ▸ hx⟩
  · rw [appendMissing_of_notMem hx, List.mem_append, List.mem_singleton]

theorem firstOccurrences_nil : FirstOccurrences ([] : List α) [] where
  nodup := .nil
  mem_iff _ := .rfl
  order := .nil

/-- One round of the loop, after `l`. -/
theorem FirstOccurrences.appendMissing {l acc : List α} (h : FirstOccurrences l acc) (x : α) :
    FirstOccurrences (l ++ [x]) (appendMissing acc x) := by
  -- What occurs in `l` keeps its place when `x` is added at the end.
  have hkeep : ∀ y ∈ acc, (l ++ [x]).idxOf y = l.idxOf y := fun y hy =>
    List.idxOf_append_of_mem ((h.mem_iff y).1 hy)
  have horder : acc.Pairwise fun y z => (l ++ [x]).idxOf y < (l ++ [x]).idxOf z :=
    h.order.imp_of_mem fun {y z} hy hz hlt => by rwa [hkeep y hy, hkeep z hz]
  by_cases hx : x ∈ acc
  · rw [appendMissing_of_mem hx]
    refine ⟨h.nodup, fun y => ?_, horder⟩
    rw [List.mem_append, List.mem_singleton, h.mem_iff]
    exact ⟨.inl, fun hy => hy.elim id fun hy => hy ▸ (h.mem_iff x).1 hx⟩
  · rw [appendMissing_of_notMem hx]
    have hxl : x ∉ l := fun hxl => hx ((h.mem_iff x).2 hxl)
    refine ⟨?_, fun y => ?_, List.pairwise_append.2 ⟨horder, List.pairwise_singleton _ _, ?_⟩⟩
    · exact h.nodup.append (List.nodup_singleton x) (List.disjoint_singleton.2 hx)
    · rw [List.mem_append, List.mem_append, h.mem_iff]
    · intro y hy z hz
      obtain rfl := List.mem_singleton.1 hz
      rw [hkeep y hy, List.idxOf_append_of_notMem hxl]
      exact Nat.lt_add_right _ (List.idxOf_lt_length_of_mem ((h.mem_iff y).1 hy))

theorem FirstOccurrences.foldl {l acc : List α} (h : FirstOccurrences l acc) (l' : List α) :
    FirstOccurrences (l ++ l') (l'.foldl Go.appendMissing acc) := by
  induction l' generalizing l acc with
  | nil => rwa [List.append_nil]
  | cons x l' ih =>
    rw [List.foldl_cons, List.append_cons]
    exact ih (h.appendMissing x)

/-- The loop keeps the first occurrences. -/
theorem firstOccurrences_dedup (l : List α) : FirstOccurrences l (dedup l) :=
  firstOccurrences_nil.foldl l

/-- A list without duplicates, and no other, is the list of its first occurrences. -/
theorem firstOccurrences_self_iff {l : List α} : FirstOccurrences l l ↔ l.Nodup := by
  refine ⟨FirstOccurrences.nodup, fun h => ⟨h, fun _ => .rfl, ?_⟩⟩
  rw [List.pairwise_iff_getElem]
  intro i j hi hj hij
  rwa [h.idxOf_getElem, h.idxOf_getElem]

end Go
