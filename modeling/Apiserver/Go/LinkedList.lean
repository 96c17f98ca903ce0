import Mathlib.Data.List.Nodup

/-!
# Linked lists

The doubly linked lists of `container/list`. An element is a pointer, which its
number stands for: a list numbers its elements as they are pushed, and never gives
a number twice, so that two elements of a list are the same if their numbers are.
-/

namespace Go

/-- `list.Element`. -/
structure Element (α : Type*) where
  id : ℕ
  value : α

/-- `list.List`, from its front to its back. -/
structure LinkedList (α : Type*) where
  elements : List (Element α)
  /-- The number of the next element. -/
  next : ℕ
  nodup : (elements.map Element.id).Nodup
  lt_next : ∀ e ∈ elements, e.id < next

namespace LinkedList

variable {α : Type*} (l : LinkedList α)

/-- `list.New`. -/
def empty : LinkedList α where
  elements := []
  next := 0
  nodup := List.nodup_nil
  lt_next _ h := absurd h List.not_mem_nil

/-- `Len`. -/
def len : ℕ := l.elements.length

/-- `Back`, nil if there is no element. -/
def back : Option (Element α) := l.elements.getLast?

/-- `PushFront`: the new element, and the list with it. -/
def pushFront (a : α) : Element α × LinkedList α :=
  let e : Element α := { id := l.next, value := a }
  (e, {
    elements := e :: l.elements
    next := l.next + 1
    nodup := by
      refine List.nodup_cons.2 ⟨fun h => ?_, l.nodup⟩
      obtain ⟨e', he', hid⟩ := List.mem_map.1 h
      exact absurd hid (Nat.ne_of_lt (l.lt_next e' he'))
    lt_next := by
      intro e' he'
      rcases List.mem_cons.1 he' with rfl | he'
      · exact Nat.lt_succ_self _
      · exact Nat.lt_succ_of_lt (l.lt_next e' he') })

/-- `Remove`, which does nothing if the element is not of the list. -/
def remove (e : Element α) : LinkedList α where
  elements := l.elements.filter fun e' => e'.id ≠ e.id
  next := l.next
  nodup := l.nodup.sublist (List.filter_sublist.map _)
  lt_next e' he' := l.lt_next e' (List.mem_filter.1 he').1

variable {l} {e e' : Element α}

/-- An element is told by its number. -/
theorem eq_of_id_eq (he : e ∈ l.elements) (he' : e' ∈ l.elements) (h : e.id = e'.id) : e = e' :=
  List.inj_on_of_nodup_map l.nodup he he' h

theorem mem_remove (he : e ∈ l.elements) :
    e' ∈ (l.remove e).elements ↔ e' ∈ l.elements ∧ e' ≠ e := by
  simp only [remove, List.mem_filter, decide_eq_true_eq]
  refine and_congr_right fun he' => not_congr ⟨fun h => eq_of_id_eq he' he h, ?_⟩
  rintro rfl
  rfl

theorem len_remove_le : (l.remove e).len ≤ l.len :=
  List.length_filter_le _ _

/-- Removing the last element leaves the others. -/
theorem elements_remove_back (h : l.back = some e) :
    (l.remove e).elements = l.elements.dropLast := by
  obtain ⟨es, hes⟩ := List.getLast?_eq_some_iff.1 h
  have hnodup := l.nodup
  rw [hes, List.map_append, List.nodup_append] at hnodup
  have hremove : (l.remove e).elements = l.elements.filter fun e' => e'.id ≠ e.id := rfl
  rw [hremove, hes, List.dropLast_concat, List.filter_append]
  have hself : [e].filter (fun e' => decide (e'.id ≠ e.id)) = [] := by simp
  rw [hself, List.append_nil, List.filter_eq_self]
  intro e' he'
  exact decide_eq_true (hnodup.2.2 _ (List.mem_map_of_mem he') _ (List.mem_singleton_self _))

end LinkedList

end Go
