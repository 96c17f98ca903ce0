import Apiserver.Transition.System
import Apiserver.Transition.Table
import Mathlib.Data.List.Nodup

/-!
# The buffered audit backend

The backend (`plugin/audit/buffered/buffered.go`) puts events in a channel of a
bounded size. A worker collects them into batches, and passes each batch to the
backend behind, its delegate, itself or in a goroutine of its own. When the stop
channel is closed, the worker closes the buffer and empties it (it *drains*).
Events that find the buffer full, or closed, are reported as failed.

The state of the backend is that of the calls of `ProcessEvents`, of the worker,
of the goroutines and of a call of `Shutdown`, and what they share. A step is one
of any of them, so that the runs are all the interleavings. An event of a call is
told from every other by the number of the call and its own among the arguments
(`Entry`).

* `Flow`, `flow_invariant`: the events that have entered the buffer are, in their
  order, those in batches, those in the hands of the worker, and those in the
  buffer; and each batch was passed on once or is about to be;
* `Accounted`, `accounted_invariant`: the first events of a call have entered the
  buffer, and the others are reported when it returns;
* `lossless`: so nothing is lost and nothing passed on twice;
* `shutdown_can_return`: `Shutdown` returns, if the backend goes on and no more
  events come.
-/

namespace Apiserver.Audit.Buffered

open Transition

/-- `bufferedBackend`: what does not change. The waiting time and the throttle
    only delay its steps, and so are left out. -/
structure Backend where
  bufferSize : ℕ
  maxBatchSize : ℕ
  maxBatchSize_pos : 0 < maxBatchSize
  asyncDelegate : Bool := false

variable {ε : Type}

/-- An event in the buffer: the call of `ProcessEvents` it came with, and which of
    the arguments it was. -/
structure Entry (ε : Type) where
  call : ℕ
  index : ℕ
  event : ε
  deriving DecidableEq

/-- A call of `ProcessEvents`: its arguments, how many of them have been put in
    the buffer, and those reported as failed once it has returned. -/
structure Call (ε : Type) where
  args : List ε
  sent : ℕ := 0
  failed : Option (List ε) := none

/-- Where the worker is. -/
inductive Worker (ε : Type)
  | idle
  /-- In `collectEvents`, -/
  | collecting (drain : Bool) (events : List (Entry ε))
  /-- at the beginning of `processEvents`, -/
  | processing (drain : Bool) (events : List (Entry ε))
  /-- or waiting for the delegate. -/
  | calling (drain : Bool)
  /-- Looking whether the stop channel is closed. -/
  | checking
  /-- `shutdownCh` is closed. -/
  | exited

/-- Where `Shutdown` is: before its call, waiting for the worker, waiting for the
    goroutines, and after its return. -/
inductive Shutdown
  | idle
  | called
  | waiting
  | returned
  deriving DecidableEq

structure State (ε : Type) where
  calls : List (Call ε) := []
  buffer : List (Entry ε) := []
  closed : Bool := false
  /-- The stop channel is closed. -/
  stopped : Bool := false
  worker : Worker ε := .idle
  /-- The goroutines that have yet to call the delegate, by their batches, -/
  sending : List (List (Entry ε)) := []
  /-- and the number of those that have called it. -/
  running : ℕ := 0
  shutdown : Shutdown := .idle
  /-- What has entered the buffer, in this order, -/
  entered : List (Entry ε) := []
  /-- the batches in the order in which they were formed, -/
  formed : List (List (Entry ε)) := []
  /-- and in the order in which the delegate was called with them. -/
  delivered : List (List (Entry ε)) := []

/-- The worker after a batch has been taken care of. -/
def Worker.resume (drain : Bool) : Worker ε := if drain then .collecting true [] else .checking

/-- The worker after an empty batch; this is how it finds out that it is done. -/
def Worker.finish (drain : Bool) : Worker ε := if drain then .exited else .checking

/-- The events in the hands of the worker. -/
def Worker.batch : Worker ε → List (Entry ε)
  | .collecting _ events => events
  | .processing _ events => events
  | _ => []

/-- The worker drains the buffer, or has done so. -/
def Worker.drains : Worker ε → Bool
  | .collecting drain _ => drain
  | .processing drain _ => drain
  | .calling drain => drain
  | .exited => true
  | _ => false

/-- An event of a call enters the buffer. -/
def State.enter (s : State ε) (k : ℕ) (c : Call ε) (e : ε) : State ε :=
  { s with
    calls := s.calls.set k { c with sent := c.sent + 1 }
    entered := s.entered ++ [⟨k, c.sent, e⟩] }

/-- A call returns. -/
def State.ret (s : State ε) (k : ℕ) (c : Call ε) (failed : List ε) : State ε :=
  { s with calls := s.calls.set k { c with failed := some failed } }

/-- The events of a call that have entered the buffer. -/
def State.put (s : State ε) (k : ℕ) : List ε := (s.entered.filter (·.call = k)).map (·.event)

namespace Backend

variable (b : Backend)

/-- A step of a call of `ProcessEvents`. -/
inductive CallStep : State ε → State ε → Prop
  | call {s : State ε} (args : List ε) : CallStep s { s with calls := s.calls ++ [{ args }] }
  | send {s : State ε} {k : ℕ} {c : Call ε} {e : ε} (hk : s.calls[k]? = some c)
      (hrunning : c.failed = none) (he : c.args[c.sent]? = some e) (hopen : s.closed = false)
      (hroom : s.buffer.length < b.bufferSize) :
      CallStep s { s.enter k c e with buffer := s.buffer ++ [⟨k, c.sent, e⟩] }
  /-- The worker is waiting for an event, and is given it. -/
  | handOver {s : State ε} {k : ℕ} {c : Call ε} {e : ε} {drain : Bool} {events : List (Entry ε)}
      (hk : s.calls[k]? = some c) (hrunning : c.failed = none) (he : c.args[c.sent]? = some e)
      (hopen : s.closed = false) (hempty : s.buffer = [])
      (hw : s.worker = .collecting drain events) (hlt : events.length < b.maxBatchSize) :
      CallStep s { s.enter k c e with
        worker := .collecting drain (events ++ [⟨k, c.sent, e⟩]) }
  /-- The buffer is full: `audit buffer queue blocked`. -/
  | blocked {s : State ε} {k : ℕ} {c : Call ε} {e : ε} (hk : s.calls[k]? = some c)
      (hrunning : c.failed = none) (he : c.args[c.sent]? = some e) (hopen : s.closed = false)
      (hfull : b.bufferSize ≤ s.buffer.length) : CallStep s (s.ret k c (c.args.drop c.sent))
  /-- Sending on a closed channel panics: `audit backend shut down`. -/
  | shutDown {s : State ε} {k : ℕ} {c : Call ε} {e : ε} (hk : s.calls[k]? = some c)
      (hrunning : c.failed = none) (he : c.args[c.sent]? = some e) (hclosed : s.closed = true) :
      CallStep s (s.ret k c (c.args.drop c.sent))
  | ret {s : State ε} {k : ℕ} {c : Call ε} (hk : s.calls[k]? = some c) (hrunning : c.failed = none)
      (hall : c.args[c.sent]? = none) : CallStep s (s.ret k c [])

/-- A step of the worker. -/
inductive WorkerStep : State ε → State ε → Prop
  | run {s : State ε} (hw : s.worker = .idle) :
      WorkerStep s { s with worker := .collecting false [] }
  | receive {s : State ε} {drain : Bool} {events rest : List (Entry ε)} {e : Entry ε}
      (hw : s.worker = .collecting drain events) (hlt : events.length < b.maxBatchSize)
      (hbuffer : s.buffer = e :: rest) :
      WorkerStep s { s with worker := .collecting drain (events ++ [e]), buffer := rest }
  | full {s : State ε} {drain : Bool} {events : List (Entry ε)}
      (hw : s.worker = .collecting drain events) (hfull : b.maxBatchSize ≤ events.length) :
      WorkerStep s { s with worker := .processing drain events }
  /-- The buffer is closed and empty. -/
  | closed {s : State ε} {drain : Bool} {events : List (Entry ε)}
      (hw : s.worker = .collecting drain events) (hlt : events.length < b.maxBatchSize)
      (hclosed : s.closed = true) (hempty : s.buffer = []) :
      WorkerStep s { s with worker := .processing drain events }
  /-- The timer, which there is for batches of several events, but not to drain. -/
  | timer {s : State ε} {events : List (Entry ε)} (hw : s.worker = .collecting false events)
      (hlt : events.length < b.maxBatchSize) (hmax : 1 < b.maxBatchSize) :
      WorkerStep s { s with worker := .processing false events }
  | stop {s : State ε} {events : List (Entry ε)} (hw : s.worker = .collecting false events)
      (hlt : events.length < b.maxBatchSize) (hstopped : s.stopped = true) :
      WorkerStep s { s with worker := .processing false events }
  | skip {s : State ε} {drain : Bool} (hw : s.worker = .processing drain []) :
      WorkerStep s { s with worker := .finish drain }
  | spawn {s : State ε} {drain : Bool} {events : List (Entry ε)}
      (hw : s.worker = .processing drain events) (hne : events ≠ [])
      (hasync : b.asyncDelegate = true) :
      WorkerStep s { s with
        worker := .resume drain
        formed := s.formed ++ [events]
        sending := s.sending ++ [events] }
  | delegate {s : State ε} {drain : Bool} {events : List (Entry ε)}
      (hw : s.worker = .processing drain events) (hne : events ≠ [])
      (hsync : b.asyncDelegate = false) :
      WorkerStep s { s with
        worker := .calling drain
        formed := s.formed ++ [events]
        delivered := s.delivered ++ [events] }
  | delegated {s : State ε} {drain : Bool} (hw : s.worker = .calling drain) :
      WorkerStep s { s with worker := .resume drain }
  | again {s : State ε} (hw : s.worker = .checking) (hstopped : s.stopped = false) :
      WorkerStep s { s with worker := .collecting false [] }
  | close {s : State ε} (hw : s.worker = .checking) (hstopped : s.stopped = true) :
      WorkerStep s { s with worker := .collecting true [], closed := true }

/-- A step of anything else: the goroutines, `Shutdown`, and the closing of the
    stop channel. -/
inductive OtherStep : State ε → State ε → Prop
  | deliver {s : State ε} {before after : List (List (Entry ε))} {events : List (Entry ε)}
      (hsending : s.sending = before ++ events :: after) :
      OtherStep s { s with
        sending := before ++ after
        running := s.running + 1
        delivered := s.delivered ++ [events] }
  | done {s : State ε} {n : ℕ} (hrunning : s.running = n + 1) : OtherStep s { s with running := n }
  | stop {s : State ε} : OtherStep s { s with stopped := true }
  | shutdown {s : State ε} (hs : s.shutdown = .idle) : OtherStep s { s with shutdown := .called }
  | exited {s : State ε} (hs : s.shutdown = .called) (hw : s.worker = .exited) :
      OtherStep s { s with shutdown := .waiting }
  /-- The counter of the wait group is zero. -/
  | returned {s : State ε} (hs : s.shutdown = .waiting)
      (hwg : s.sending.length + s.running = 0) : OtherStep s { s with shutdown := .returned }

/-- The backend. -/
def system (ε : Type) : System (State ε) where
  init s := s = {}
  step s t := b.CallStep s t ∨ b.WorkerStep s t ∨ OtherStep s t

/-! ## The way of an event -/

/-- Where the events are that have entered the buffer, and how far the worker and
    `Shutdown` can have come. -/
structure Flow (s : State ε) : Prop where
  order : s.entered = s.formed.flatten ++ (s.worker.batch ++ s.buffer)
  passed : s.formed.Perm (s.delivered ++ s.sending)
  sizes : ∀ events ∈ s.formed, events ≠ [] ∧ events.length ≤ b.maxBatchSize
  length_batch : s.worker.batch.length ≤ b.maxBatchSize
  closed : s.worker.drains = true → s.closed = true
  drained : s.worker = .processing true [] ∨ s.worker = .exited → s.buffer = []
  exited : s.shutdown = .waiting ∨ s.shutdown = .returned → s.worker = .exited
  sent : s.shutdown = .returned → s.sending = []

variable {b} {s t : State ε}

@[simp] theorem batch_resume (drain : Bool) : (Worker.resume drain : Worker ε).batch = [] := by
  cases drain <;> rfl

@[simp] theorem batch_finish (drain : Bool) : (Worker.finish drain : Worker ε).batch = [] := by
  cases drain <;> rfl

@[simp] theorem drains_resume (drain : Bool) : (Worker.resume drain : Worker ε).drains = drain := by
  cases drain <;> rfl

@[simp] theorem drains_finish (drain : Bool) : (Worker.finish drain : Worker ε).drains = drain := by
  cases drain <;> rfl

/-- Before the worker has exited, `Shutdown` cannot have got past it. -/
theorem Flow.not_waiting (h : b.Flow s) (hw : s.worker ≠ .exited) :
    ¬ (s.shutdown = .waiting ∨ s.shutdown = .returned) := mt h.exited hw

/-- Calls keep to the flow of events. -/
theorem Flow.callStep (h : b.Flow s) (hst : b.CallStep s t) : b.Flow t := by
  -- Nothing enters a closed buffer, so that a worker that drains it can empty it.
  have hdrained {w : Worker ε} (hopen : s.closed = false) (hw : w.drains = s.worker.drains) :
      ¬ (w = .processing true [] ∨ w = .exited) := by
    rintro (rfl | rfl)
    all_goals
      have hclosed := h.closed hw.symm
      rw [hopen] at hclosed
      cases hclosed
  cases hst with
  | call args => exact ⟨h.order, h.passed, h.sizes, h.length_batch, h.closed, h.drained, h.exited,
      h.sent⟩
  | send hk hrunning he hopen hroom =>
    refine { h with order := ?_, drained := fun hw => absurd hw (hdrained hopen rfl) }
    simp [State.enter, h.order]
  | @handOver _ _ _ drain events hk hrunning he hopen hempty hw hlt =>
    have hnot := h.not_waiting (by simp [hw])
    refine ⟨?_, h.passed, h.sizes, ?_, ?_, ?_, fun hs => absurd hs hnot,
      fun hs => absurd (.inr hs) hnot⟩
    · -- The buffer is empty, so that the event does not overtake another.
      simp [State.enter, h.order, hw, hempty, Worker.batch]
    · simpa [Worker.batch] using Nat.succ_le_of_lt hlt
    · intro hd
      exact h.closed (by rw [hw]; exact hd)
    · intro hw'
      exact absurd hw' (hdrained hopen (by rw [hw]; rfl))
  | blocked | shutDown | ret => exact ⟨h.order, h.passed, h.sizes, h.length_batch, h.closed,
      h.drained, h.exited, h.sent⟩

/-- The worker has changed, and nothing else: it has the same events in its hands,
    and drains the buffer as before. -/
theorem Flow.of_worker (h : b.Flow s) {w : Worker ε} (hw : s.worker ≠ .exited)
    (hbatch : w.batch = s.worker.batch) (hdrains : w.drains = s.worker.drains)
    (hdrained : w = .processing true [] ∨ w = .exited → s.buffer = []) :
    b.Flow { s with worker := w } where
  order := by simpa [hbatch] using h.order
  passed := h.passed
  sizes := h.sizes
  length_batch := by simpa [hbatch] using h.length_batch
  closed hd := h.closed (hdrains ▸ hd)
  drained := hdrained
  exited hs := absurd hs (h.not_waiting hw)
  sent := h.sent

/-- A batch that is complete is passed on. -/
theorem Flow.of_formed (h : b.Flow s) {drain : Bool} {events : List (Entry ε)} {w : Worker ε}
    {sending delivered : List (List (Entry ε))} (hw : s.worker = .processing drain events)
    (hne : events ≠ []) (hbatch : w.batch = []) (hdrains : w.drains = drain)
    (hrest : ¬ (w = .processing true [] ∨ w = .exited))
    (hpassed : (s.formed ++ [events]).Perm (delivered ++ sending)) :
    b.Flow { s with worker := w, formed := s.formed ++ [events], sending, delivered } := by
  have hnot := h.not_waiting (by simp [hw])
  have hlen : events.length ≤ b.maxBatchSize := by simpa [hw, Worker.batch] using h.length_batch
  refine ⟨?_, hpassed, ?_, by simp [hbatch], ?_, fun hw' => absurd hw' hrest,
    fun hs => absurd hs hnot, fun hs => absurd (.inr hs) hnot⟩
  · -- The events go from the hands of the worker to the end of what was formed.
    rw [hbatch, h.order, hw]
    simp [Worker.batch]
  · intro events' hevents
    rcases List.mem_append.1 hevents with hevents | hevents
    · exact h.sizes _ hevents
    · rw [List.mem_singleton.1 hevents]
      exact ⟨hne, hlen⟩
  · intro hd
    exact h.closed (by rw [hw]; exact hdrains ▸ hd)

/-- The worker passes events on in their order. -/
theorem Flow.workerStep (h : b.Flow s) (hst : b.WorkerStep s t) : b.Flow t := by
  cases hst with
  | run hw => exact h.of_worker (by simp [hw]) (by rw [hw]; rfl) (by rw [hw]; rfl) (by simp)
  | @receive drain events rest e hw hlt hbuffer =>
    have hnot := h.not_waiting (by simp [hw])
    refine ⟨?_, h.passed, h.sizes, ?_, ?_, by simp, fun hs => absurd hs hnot, h.sent⟩
    · simpa [hw, hbuffer, Worker.batch] using h.order
    · simpa [Worker.batch] using Nat.succ_le_of_lt hlt
    · intro hd
      exact h.closed (by rw [hw]; exact hd)
  | @full drain events hw hfull =>
    refine h.of_worker (by simp [hw]) (by rw [hw]; rfl) (by rw [hw]; rfl) ?_
    -- A full batch is not empty.
    rintro (hempty | hexited)
    · cases hempty
      exact absurd hfull (Nat.not_le.2 b.maxBatchSize_pos)
    · cases hexited
  | closed hw hlt hclosed hempty =>
    exact h.of_worker (by simp [hw]) (by rw [hw]; rfl) (by rw [hw]; rfl) fun _ => hempty
  | timer hw | stop hw =>
    exact h.of_worker (by simp [hw]) (by rw [hw]; rfl) (by rw [hw]; rfl) (by simp)
  | @skip drain hw =>
    refine h.of_worker (by simp [hw]) (by rw [hw, batch_finish]; rfl)
      (by rw [hw, drains_finish]; rfl) ?_
    -- The worker exits at an empty batch, which it only gets from an empty buffer.
    cases drain with
    | true => exact fun _ => h.drained (.inl hw)
    | false => simp [Worker.finish]
  | @spawn drain events hw hne hasync =>
    refine h.of_formed hw hne (by simp) (by simp) ?_ ?_
    · cases drain <;> simp [Worker.resume]
    · rw [← List.append_assoc]
      exact h.passed.append_right _
  | @delegate drain events hw hne hsync =>
    refine h.of_formed hw hne rfl rfl (by simp) ?_
    refine (h.passed.append_right _).trans ?_
    rw [List.append_assoc, List.append_assoc]
    exact List.perm_append_comm.append_left _
  | @delegated drain hw =>
    refine h.of_worker (by simp [hw]) (by rw [hw, batch_resume]; rfl)
      (by rw [hw, drains_resume]; rfl) ?_
    cases drain <;> simp [Worker.resume]
  | again hw => exact h.of_worker (by simp [hw]) (by rw [hw]; rfl) (by rw [hw]; rfl) (by simp)
  | close hw hstopped =>
    have hnot := h.not_waiting (by simp [hw])
    refine ⟨?_, h.passed, h.sizes, by simp [Worker.batch], fun _ => rfl, by simp,
      fun hs => absurd hs hnot, h.sent⟩
    simpa [hw, Worker.batch] using h.order

/-- Timers, delegates and `Shutdown` keep to the flow as well. -/
theorem Flow.otherStep (h : b.Flow s) (hst : OtherStep s t) : b.Flow t := by
  cases hst with
  | @deliver before after events hsending =>
    refine { h with passed := ?_, sent := fun hs => ?_ }
    · have hperm := h.passed
      rw [hsending] at hperm
      refine hperm.trans ?_
      simpa using List.perm_middle.append_left s.delivered
    · have hnil := h.sent hs
      simp [hsending] at hnil
  | done | stop => exact { h with }
  | shutdown hs => exact { h with exited := by simp, sent := by simp }
  | exited hs hw => exact { h with exited := fun _ => hw, sent := by simp }
  | returned hs hwg =>
    refine { h with exited := fun _ => h.exited (.inl hs), sent := fun _ => ?_ }
    exact List.length_eq_zero_iff.1 (Nat.add_eq_zero_iff.1 hwg).1

theorem flow_invariant : (b.system ε).Invariant b.Flow where
  init := by
    rintro s rfl
    exact ⟨rfl, .refl _, by simp, by simp [Worker.batch], by simp [Worker.drains], by simp,
      by simp, by simp⟩
  step s t h hst := by
    rcases hst with hst | hst | hst
    · exact h.callStep hst
    · exact h.workerStep hst
    · exact h.otherStep hst

/-! ## The events of a call -/

/-- The first events of a call have entered the buffer, each once, and the others
    are reported when it returns. -/
structure Accounted (s : State ε) : Prop where
  index : ∀ e ∈ s.entered, ∃ c : Call ε, s.calls[e.call]? = some c ∧ e.index < c.sent
  nodup : s.entered.Nodup
  put : ∀ (k : ℕ) (c : Call ε), s.calls[k]? = some c → s.put k = c.args.take c.sent
  failed : ∀ (k : ℕ) (c : Call ε) (failed : List ε), s.calls[k]? = some c →
    c.failed = some failed → failed = c.args.drop c.sent

theorem Accounted.of_eq (h : Accounted s) (hcalls : t.calls = s.calls)
    (hentered : t.entered = s.entered) : Accounted t := by
  obtain ⟨hindex, hnodup, hput, hfailed⟩ := h
  refine ⟨?_, ?_, ?_, ?_⟩
  · rwa [hcalls, hentered]
  · rwa [hentered]
  · rw [hcalls]
    intro k c hk
    rw [State.put, hentered]
    exact hput k c hk
  · rwa [hcalls]

/-- The next event of a call enters the buffer. -/
theorem Accounted.enter (h : Accounted s) {k : ℕ} {c : Call ε} {e : ε}
    (hk : s.calls[k]? = some c) (hrunning : c.failed = none) (he : c.args[c.sent]? = some e) :
    Accounted (s.enter k c e) := by
  have hself : (s.enter k c e).calls[k]? = some { c with sent := c.sent + 1 } :=
    getElem?_set_of_some hk
  have hother {k' : ℕ} (hne : k' ≠ k) : (s.enter k c e).calls[k']? = s.calls[k']? :=
    List.getElem?_set_ne hne.symm
  refine ⟨?_, ?_, ?_, ?_⟩
  · intro e' he'
    rcases List.mem_append.1 he' with he' | he'
    · obtain ⟨c', hc', hlt'⟩ := h.index e' he'
      by_cases heq : e'.call = k
      · rw [heq, hk] at hc'
        cases hc'
        exact ⟨{ c with sent := c.sent + 1 }, by rw [heq, hself], Nat.lt_succ_of_lt hlt'⟩
      · exact ⟨c', (hother heq).trans hc', hlt'⟩
    · rw [List.mem_singleton.1 he']
      exact ⟨_, hself, Nat.lt_succ_self _⟩
  · refine List.nodup_append.2 ⟨h.nodup, List.nodup_singleton _, ?_⟩
    -- The index of the new event is not taken yet.
    rintro e₁ he₁ e₂ he₂ rfl
    obtain ⟨c', hc', hlt'⟩ := h.index e₁ he₁
    rw [List.mem_singleton.1 he₂] at hc' hlt'
    rw [hk] at hc'
    cases hc'
    exact absurd hlt' (Nat.lt_irrefl _)
  · intro k' c' hc'
    by_cases heq : k' = k
    · subst heq
      rw [hself] at hc'
      cases hc'
      have hput := h.put k' c hk
      rw [State.put] at hput
      simp [State.put, State.enter, List.take_add_one, he, hput]
    · rw [hother heq] at hc'
      rw [← h.put k' c' hc']
      simp [State.put, State.enter, Ne.symm heq]
  · intro k' c' failed hc' hfailed
    by_cases heq : k' = k
    · subst heq
      rw [hself] at hc'
      cases hc'
      simp [hrunning] at hfailed
    · exact h.failed k' c' failed ((hother heq).symm.trans hc') hfailed

/-- A call returns, and reports the events that have not entered the buffer. -/
theorem Accounted.ret (h : Accounted s) {k : ℕ} {c : Call ε} {failed : List ε}
    (hk : s.calls[k]? = some c) (hf : failed = c.args.drop c.sent) :
    Accounted (s.ret k c failed) := by
  -- A call after the step is one before it, but for the report.
  have hcall {k' : ℕ} {c' : Call ε} (hc' : (s.ret k c failed).calls[k']? = some c') :
      ∃ c₀, s.calls[k']? = some c₀ ∧ c'.args = c₀.args ∧ c'.sent = c₀.sent ∧
        (c'.failed = c₀.failed ∨ c'.failed = some (c₀.args.drop c₀.sent)) := by
    rcases eq_or_of_getElem?_set hc' with ⟨rfl, rfl⟩ | ⟨-, hc'⟩
    · exact ⟨c, hk, rfl, rfl, .inr (by rw [hf])⟩
    · exact ⟨c', hc', rfl, rfl, .inl rfl⟩
  refine ⟨?_, h.nodup, ?_, ?_⟩
  · intro e he
    obtain ⟨c', hc', hlt'⟩ := h.index e he
    by_cases heq : e.call = k
    · rw [heq, hk] at hc'
      cases hc'
      refine ⟨{ c with failed := some failed }, ?_, hlt'⟩
      rw [heq]
      exact getElem?_set_of_some hk
    · exact ⟨c', (List.getElem?_set_ne (Ne.symm heq)).trans hc', hlt'⟩
  · intro k' c' hc'
    obtain ⟨c₀, hc₀, hargs, hsent, -⟩ := hcall hc'
    rw [hargs, hsent]
    exact h.put k' c₀ hc₀
  · intro k' c' failed' hc' hfailed'
    obtain ⟨c₀, hc₀, hargs, hsent, hor⟩ := hcall hc'
    rw [hargs, hsent]
    rcases hor with hor | hor
    · exact h.failed k' c₀ failed' hc₀ (hor.symm.trans hfailed')
    · exact Option.some.inj (hfailed'.symm.trans hor)

/-- An event that a caller hands over is accounted for. -/
theorem Accounted.callStep (h : Accounted s) (hst : b.CallStep s t) : Accounted t := by
  cases hst with
  | call args =>
    refine ⟨fun e he => ?_, h.nodup, fun k c hk => ?_, fun k c failed hk hfailed => ?_⟩
    · obtain ⟨c, hc, hlt⟩ := h.index e he
      exact ⟨c, getElem?_concat_of_some hc, hlt⟩
    · rcases eq_or_of_getElem?_concat hk with hk | ⟨rfl, rfl⟩
      · exact h.put k c hk
      · -- No event has come with this call yet.
        have hnone : s.entered.filter (·.call = s.calls.length) = [] := by
          refine List.filter_eq_nil_iff.2 fun e he hcall => ?_
          obtain ⟨c, hc, -⟩ := h.index e he
          rw [of_decide_eq_true hcall, List.getElem?_length] at hc
          cases hc
        simp [State.put, hnone]
    · rcases eq_or_of_getElem?_concat hk with hk | ⟨rfl, rfl⟩
      · exact h.failed k c failed hk hfailed
      · cases hfailed
  | send hk hrunning he hopen hroom => exact (h.enter hk hrunning he).of_eq rfl rfl
  | handOver hk hrunning he hopen hempty hw hlt => exact (h.enter hk hrunning he).of_eq rfl rfl
  | blocked hk | shutDown hk => exact h.ret hk rfl
  | ret hk hrunning hall => exact h.ret hk (List.drop_eq_nil_of_le (by simpa using hall)).symm

theorem accounted_invariant : (b.system ε).Invariant Accounted where
  init := by
    rintro s rfl
    exact ⟨by simp, .nil, by simp, by simp⟩
  step s t h hst := by
    rcases hst with hst | hst | hst
    · exact h.callStep hst
    · cases hst <;> exact h.of_eq rfl rfl
    · cases hst <;> exact h.of_eq rfl rfl

/-! ## Nothing is lost, and nothing passed on twice -/

variable (b) in
/-- What the backend is for. Batches are passed on at most once, and have a size
    that the delegate can handle; together they are the events in the order in
    which they entered the buffer, all of them when `Shutdown` has returned; and
    the events of a call that entered the buffer, and those it reports as failed,
    are its arguments. -/
structure Lossless (s : State ε) : Prop where
  sizes : ∀ events ∈ s.delivered, events ≠ [] ∧ events.length ≤ b.maxBatchSize
  order : s.formed.flatten <+: s.entered
  once : s.delivered.flatten.Nodup
  delivered : s.shutdown = .returned →
    s.formed.flatten = s.entered ∧ s.delivered.flatten.Perm s.entered
  failed : ∀ (k : ℕ) (c : Call ε) (failed : List ε), s.calls[k]? = some c →
    c.failed = some failed → s.put k ++ failed = c.args

/-- No event is in two batches, or twice in one, if none entered the buffer twice. -/
theorem Flow.nodup_delivered (h : b.Flow s) (hnodup : s.entered.Nodup) :
    s.delivered.flatten.Nodup := by
  rw [h.order] at hnodup
  have hpassed := h.passed.flatten.nodup_iff.1 hnodup.of_append_left
  rw [List.flatten_append] at hpassed
  exact hpassed.of_append_left

/-- When `Shutdown` has returned, there is nothing left in the buffer, with the
    worker or with the goroutines. -/
theorem Flow.of_returned (h : b.Flow s) (hs : s.shutdown = .returned) :
    s.formed.flatten = s.entered ∧ s.delivered.flatten.Perm s.entered := by
  have hexited := h.exited (.inr hs)
  have hformed : s.formed.flatten = s.entered := by
    rw [h.order, hexited, h.drained (.inr hexited)]
    simp [Worker.batch]
  refine ⟨hformed, ?_⟩
  have hpassed := h.passed.flatten
  rw [h.sent hs, List.append_nil, hformed] at hpassed
  exact hpassed.symm

/-- In every interleaving, what entered the buffer is passed on once and in order, and all of it
    by the time `Shutdown` returns. -/
theorem lossless (h : (b.system ε).Reachable s) : b.Lossless s := by
  have hflow := flow_invariant.reachable h
  have haccounted := accounted_invariant.reachable h
  refine ⟨fun events hevents => ?_, ?_, ?_, hflow.of_returned, fun k c failed hk hfailed => ?_⟩
  · exact hflow.sizes events (hflow.passed.mem_iff.2 (List.mem_append_left _ hevents))
  · rw [hflow.order]
    exact List.prefix_append ..
  · exact hflow.nodup_delivered haccounted.nodup
  · rw [haccounted.put k c hk, haccounted.failed k c failed hk hfailed, List.take_append_drop]

/-- A backend with a buffer for one event. -/
def exampleBackend : Backend where
  bufferSize := 1
  maxBatchSize := 2
  maxBatchSize_pos := Nat.two_pos

/-- That backend after a call with two events, -/
def exampleCalled : State String where
  calls := [{ args := ["a", "b"], sent := 1, failed := some ["b"] }]
  buffer := [⟨0, 0, "a"⟩]
  entered := [⟨0, 0, "a"⟩]

/-- and after its `Shutdown`. -/
def exampleShutDown : State String where
  calls := [{ args := ["a", "b"], sent := 1, failed := some ["b"] }]
  closed := true
  stopped := true
  worker := .exited
  shutdown := .returned
  entered := [⟨0, 0, "a"⟩]
  formed := [[⟨0, 0, "a"⟩]]
  delivered := [[⟨0, 0, "a"⟩]]

/-- The buffer takes the first event, and has no room for the second. -/
theorem exampleCalled_reachable : (exampleBackend.system String).Reachable exampleCalled := by
  have h₀ : (exampleBackend.system String).Reachable {} := .of_init rfl
  have h₁ := h₀.step (.inl (.call ["a", "b"]))
  have h₂ := h₁.step (.inl (.send (k := 0) rfl rfl rfl rfl (by decide)))
  have h₃ := h₂.step (.inl (.blocked (k := 0) rfl rfl rfl rfl (by decide)))
  exact h₃

theorem exampleShutDown_reachable : (exampleBackend.system String).Reachable exampleShutDown := by
  have h₁ := exampleCalled_reachable.step (.inr (.inl (.run rfl)))
  have h₂ := h₁.step (.inr (.inl (.receive rfl (by decide) rfl)))
  have h₃ := h₂.step (.inr (.inr .stop))
  have h₄ := h₃.step (.inr (.inl (.stop rfl (by decide) rfl)))
  have h₅ := h₄.step (.inr (.inl (.delegate rfl (by decide) rfl)))
  have h₆ := h₅.step (.inr (.inl (.delegated rfl)))
  have h₇ := h₆.step (.inr (.inl (.close rfl rfl)))
  have h₈ := h₇.step (.inr (.inl (.closed rfl (by decide) rfl rfl)))
  have h₉ := h₈.step (.inr (.inl (.skip rfl)))
  have h₁₀ := h₉.step (.inr (.inr (.shutdown rfl)))
  have h₁₁ := h₁₀.step (.inr (.inr (.exited rfl rfl)))
  exact h₁₁.step (.inr (.inr (.returned rfl rfl)))

theorem exampleShutDown_lossless :
    (exampleBackend.system String).Reachable exampleShutDown ∧
      exampleBackend.Lossless exampleShutDown :=
  ⟨exampleShutDown_reachable, lossless exampleShutDown_reachable⟩

/-! ## Shutting down -/

/-- How far the worker is from its exit, when the stop channel is closed. -/
def workerDistance : Worker ε → ℕ
  | .idle => 14
  | .collecting false events => 13 + 5 * events.length
  | .processing false events => 12 + 5 * events.length
  | .calling false => 12
  | .checking => 11
  | .collecting true events => 3 + 5 * events.length
  | .processing true events => 2 + 5 * events.length
  | .calling true => 4
  | .exited => 0

/-- How far `Shutdown` is from its return. -/
def shutdownDistance : Shutdown → ℕ
  | .idle => 3
  | .called => 2
  | .waiting => 1
  | .returned => 0

/-- How far the backend is from the return of `Shutdown`. Taking an event out of
    the buffer counts more than having it in a batch, and a batch more than a
    goroutine for it. -/
def distance (s : State ε) : ℕ :=
  (if s.stopped then 0 else 1) + workerDistance s.worker + 6 * s.buffer.length +
    2 * s.sending.length + s.running + shutdownDistance s.shutdown

/-- A worker that has not exited has a step, if the stop channel is closed. -/
theorem Flow.exists_workerStep (h : b.Flow s) (hstopped : s.stopped = true)
    (hw : s.worker ≠ .exited) : ∃ t, b.WorkerStep s t ∧ distance t < distance s := by
  cases hworker : s.worker with
  | idle => exact ⟨_, .run hworker, by simp [distance, hworker, workerDistance]⟩
  | collecting drain events =>
    by_cases hlt : events.length < b.maxBatchSize
    · cases drain with
      | false => exact ⟨_, .stop hworker hlt hstopped, by simp [distance, hworker, workerDistance]⟩
      | true =>
        cases hbuffer : s.buffer with
        -- It drains only once the buffer is closed, so that an empty one ends it.
        | nil =>
          have hclosed := h.closed (by rw [hworker]; rfl)
          exact ⟨_, .closed hworker hlt hclosed hbuffer,
            by simp [distance, hworker, workerDistance]⟩
        | cons e rest =>
          refine ⟨_, .receive hworker hlt hbuffer, ?_⟩
          simp only [distance, hworker, hbuffer, workerDistance, List.length_append,
            List.length_cons, List.length_nil]
          omega
    · refine ⟨_, .full hworker (Nat.not_lt.1 hlt), ?_⟩
      cases drain <;> simp [distance, hworker, workerDistance]
  | processing drain events =>
    cases events with
    | nil =>
      refine ⟨_, .skip hworker, ?_⟩
      cases drain <;> simp [distance, hworker, workerDistance, Worker.finish]
    | cons e events =>
      cases hasync : b.asyncDelegate with
      | true =>
        refine ⟨_, .spawn hworker (List.cons_ne_nil _ _) hasync, ?_⟩
        cases drain <;> simp [distance, hworker, workerDistance, Worker.resume] <;> omega
      | false =>
        refine ⟨_, .delegate hworker (List.cons_ne_nil _ _) hasync, ?_⟩
        cases drain
        all_goals
          simp only [distance, hworker, workerDistance, List.length_cons]
          omega
  | calling drain =>
    refine ⟨_, .delegated hworker, ?_⟩
    cases drain <;> simp [distance, hworker, workerDistance, Worker.resume]
  | checking => exact ⟨_, .close hworker hstopped, by simp [distance, hworker, workerDistance]⟩
  | exited => exact absurd hworker hw

/-- Once the worker has exited, the goroutines and `Shutdown` have steps. -/
theorem exists_otherStep (hw : s.worker = .exited) (hs : s.shutdown ≠ .returned) :
    ∃ t, OtherStep s t ∧ distance t < distance s := by
  cases hshutdown : s.shutdown with
  | idle => exact ⟨_, .shutdown hshutdown, by simp [distance, hshutdown, shutdownDistance]⟩
  | called => exact ⟨_, .exited hshutdown hw, by simp [distance, hshutdown, shutdownDistance]⟩
  | waiting =>
    cases hsending : s.sending with
    | cons events rest =>
      have hsplit : s.sending = [] ++ events :: rest := hsending
      refine ⟨_, .deliver hsplit, ?_⟩
      simp only [distance, hsending, List.nil_append, List.length_cons]
      omega
    | nil =>
      cases hrunning : s.running with
      | zero =>
        exact ⟨_, .returned hshutdown (by simp [hsending, hrunning]),
          by simp [distance, hshutdown, shutdownDistance]⟩
      | succ n => exact ⟨_, .done hrunning, by simp [distance, hrunning]⟩
  | returned => exact absurd hshutdown hs

/-- From any state on, the stop channel can be closed, and then `Shutdown` returns
    if no more calls of `ProcessEvents` come between. -/
theorem shutdown_can_return (h : (b.system ε).Reachable s) :
    ∃ t, (b.system ε).Run s t ∧ t.shutdown = .returned := by
  suffices hrun : ∃ t, (b.system ε).Run s t ∧ b.Flow t ∧ t.shutdown = .returned by
    obtain ⟨t, hrun, -, ht⟩ := hrun
    exact ⟨t, hrun, ht⟩
  refine System.exists_run_of_measure distance (fun s hs hne => ?_) (flow_invariant.reachable h)
  suffices hstep : ∃ t, (b.system ε).step s t ∧ distance t < distance s by
    obtain ⟨t, hst, hlt⟩ := hstep
    exact ⟨t, hst, flow_invariant.step s t hs hst, hlt⟩
  -- First the stop channel is closed, then the worker exits, and then the rest.
  cases hstopped : s.stopped with
  | false => exact ⟨_, .inr (.inr .stop), by simp [distance, hstopped]⟩
  | true =>
    by_cases hw : s.worker = .exited
    · obtain ⟨t, hst, hlt⟩ := exists_otherStep hw hne
      exact ⟨t, .inr (.inr hst), hlt⟩
    · obtain ⟨t, hst, hlt⟩ := hs.exists_workerStep hstopped hw
      exact ⟨t, .inr (.inl hst), hlt⟩

end Backend

end Apiserver.Audit.Buffered
