import Mathlib.Data.List.Basic

/-!
# Work queues

A work queue holds items that are to be processed. An item that is added while it waits in
the queue is there once, and one that is added while it is being processed comes back to the
queue when that is done. An item may also be added with a delay, after which the queue adds
it itself.

* `Workqueue`: the operations of a queue, and the laws its users rely on;
* `Workqueue.lists`: a queue with these laws.
-/

namespace Go

/-- The operations of `workqueue`, and what can be told of a queue of the type `Q`. -/
structure Workqueue.Operations (Q κ : Type*) where
  new : Q
  /-- `Add`. -/
  add : κ → Q → Q
  /-- `Get`, unless it blocks, or the queue is empty and shutting down. -/
  get : Q → Option (κ × Q)
  /-- `Done`. -/
  done : κ → Q → Q
  /-- `AddRateLimited`. -/
  addRateLimited : κ → Q → Q
  /-- The delay of an item is over. -/
  fire : κ → Q → Q
  /-- `ShutDown`. -/
  shutDown : Q → Q
  /-- The item is to be processed, -/
  Pending : Q → κ → Prop
  /-- is being processed, -/
  Processing : Q → κ → Prop
  /-- or is added when its delay is over. -/
  Delayed : Q → κ → Prop
  shuttingDown : Q → Bool

namespace Workqueue

variable {Q κ : Type*}

section Laws

variable (w : Operations Q κ) (k : κ) (q q' : Q)

/-- An item was added: it will be processed, unless the queue is shutting down. -/
structure Added : Prop where
  pending : w.shuttingDown q = false → w.Pending q' k
  only : ∀ k', w.Pending q' k' → k' = k ∨ w.Pending q k'
  processing : ∀ k', w.Processing q' k' ↔ w.Processing q k'
  shuttingDown : w.shuttingDown q' = w.shuttingDown q

/-- An item was taken, to be processed. -/
structure Taken : Prop where
  pending : w.Pending q k
  only : ∀ k', w.Pending q' k' → w.Pending q k'
  processing : ∀ k', w.Processing q' k' ↔ k' = k ∨ w.Processing q k'
  shuttingDown : w.shuttingDown q' = w.shuttingDown q

/-- An item has been processed. If it was added in the meantime, it is still to be. -/
structure Finished : Prop where
  pending : ∀ k', w.Pending q' k' ↔ w.Pending q k'
  processing : ∀ k', w.Processing q' k' ↔ k' ≠ k ∧ w.Processing q k'
  delayed : ∀ k', w.Delayed q k' → w.Delayed q' k'
  shuttingDown : w.shuttingDown q' = w.shuttingDown q

/-- An item is going to be added, unless the queue is shutting down. -/
structure Limited : Prop where
  pending : ∀ k', w.Pending q' k' ↔ w.Pending q k'
  processing : ∀ k', w.Processing q' k' ↔ w.Processing q k'
  delayed : w.shuttingDown q = false → w.Delayed q' k
  shuttingDown : w.shuttingDown q' = w.shuttingDown q

end Laws

end Workqueue

open Workqueue in
/-- A work queue: its operations do what they are for. -/
structure Workqueue (Q κ : Type*) extends Operations Q κ where
  pending_new : ∀ k, ¬ Pending new k
  processing_new : ∀ k, ¬ Processing new k
  added_add : ∀ k q, Added toOperations k q (add k q)
  added_fire : ∀ k q, Added toOperations k q (fire k q)
  taken_get : ∀ k q q', get q = some (k, q') → Taken toOperations k q q'
  /-- `Get` does not block if there is an item that nobody processes. -/
  exists_get : ∀ k q, Pending q k → ¬ Processing q k → ∃ p, get q = some p
  finished_done : ∀ k q, Finished toOperations k q (done k q)
  limited_addRateLimited : ∀ k q, Limited toOperations k q (addRateLimited k q)
  pending_shutDown : ∀ k q, Pending (shutDown q) k ↔ Pending q k
  processing_shutDown : ∀ k q, Processing (shutDown q) k ↔ Processing q k
  shuttingDown_shutDown : ∀ q, shuttingDown (shutDown q) = true

namespace Workqueue

/-- The items of a queue, in the order in which they were added. -/
structure Lists (κ : Type*) where
  pending : List κ := []
  processing : List κ := []
  delayed : List κ := []
  shuttingDown : Bool := false

variable {κ : Type*} [DecidableEq κ]

namespace Lists

def add (k : κ) (q : Lists κ) : Lists κ :=
  if q.shuttingDown || q.pending.contains k then q else { q with pending := q.pending ++ [k] }

/-- The first item that nobody processes. -/
def get (q : Lists κ) : Option (κ × Lists κ) :=
  (q.pending.find? fun k => !q.processing.contains k).map fun k =>
    (k, { q with pending := q.pending.filter (· ≠ k), processing := k :: q.processing })

/-- What `Add` does to the lists. -/
theorem added_add (k : κ) (q : Lists κ) :
    (∀ k', k' ∈ (q.add k).pending → k' = k ∨ k' ∈ q.pending) ∧
      (q.shuttingDown = false → k ∈ (q.add k).pending) ∧
      (q.add k).processing = q.processing ∧ (q.add k).shuttingDown = q.shuttingDown := by
  unfold add
  split_ifs with h
  · simp only [Bool.or_eq_true, List.contains_iff_mem] at h
    exact ⟨fun _ => .inr, fun hdown => h.resolve_left (by simp [hdown]), rfl, rfl⟩
  · refine ⟨fun k' hk' => ?_, fun _ => by simp, rfl, rfl⟩
    simpa [or_comm] using hk'

end Lists

/-- A queue of lists. -/
def lists : Workqueue (Lists κ) κ where
  new := {}
  add := Lists.add
  get := Lists.get
  done k q := { q with processing := q.processing.filter (· ≠ k) }
  addRateLimited k q := if q.shuttingDown then q else { q with delayed := k :: q.delayed }
  fire k q := Lists.add k { q with delayed := q.delayed.filter (· ≠ k) }
  shutDown q := { q with shuttingDown := true }
  Pending q k := k ∈ q.pending
  Processing q k := k ∈ q.processing
  Delayed q k := k ∈ q.delayed
  shuttingDown := Lists.shuttingDown
  pending_new _ := List.not_mem_nil
  processing_new _ := List.not_mem_nil
  added_add k q := by
    obtain ⟨honly, hpending, hprocessing, hdown⟩ := Lists.added_add k q
    exact ⟨hpending, honly, fun k' => iff_of_eq (congrArg (k' ∈ ·) hprocessing), hdown⟩
  added_fire k q := by
    obtain ⟨honly, hpending, hprocessing, hdown⟩ :=
      Lists.added_add k { q with delayed := q.delayed.filter (· ≠ k) }
    exact ⟨hpending, honly, fun k' => iff_of_eq (congrArg (k' ∈ ·) hprocessing), hdown⟩
  taken_get k q q' h := by
    obtain ⟨k', hfind, hq⟩ := Option.map_eq_some_iff.1 h
    cases hq
    refine ⟨List.mem_of_find?_eq_some hfind, fun k' hk' => List.mem_of_mem_filter hk', ?_, rfl⟩
    simp
  exists_get k q hpending hprocessing := by
    have hsome : (q.pending.find? fun k => !q.processing.contains k).isSome = true :=
      List.find?_isSome.2 ⟨k, hpending, by simpa using hprocessing⟩
    obtain ⟨k', hk'⟩ := Option.isSome_iff_exists.1 hsome
    exact ⟨_, by rw [Lists.get, hk', Option.map_some]⟩
  finished_done k q := ⟨by simp, by simp [and_comm], fun _ => id, rfl⟩
  limited_addRateLimited k q := by
    by_cases hdown : q.shuttingDown = true
    · exact ⟨by simp [hdown], by simp [hdown], by simp [hdown], by simp [hdown]⟩
    · exact ⟨by simp [hdown], by simp [hdown], by simp [hdown], by simp [hdown]⟩
  pending_shutDown _ _ := Iff.rfl
  processing_shutDown _ _ := Iff.rfl
  shuttingDown_shutDown _ := rfl

end Workqueue

end Go
