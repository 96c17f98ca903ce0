import Apiserver.Basic
import Apiserver.Go.Sort
import Apiserver.Transition.System

/-!
# The process

A process (`pkg/proc/proc.go`) starts its modules by their start hooks, waits in
its main loop, and on a signal runs the stop hooks, in the reverse order, in a
goroutine of their own (`stop`). The main loop ends when the context of the
process is cancelled, which is the last thing `stop` does.

The state of a process is that of the two goroutines and what they share, the
context and the error of the process. A step is one of the main loop, one of
`stop`, or one of the world: a parent of the context may be cancelled at any time.

* `stopping_invariant`: at any time, the hooks `stop` has run and those it has yet
  to run are all of them, in the reverse order;
* `stop_can_return`: `stop` returns, if the process goes on;
* `complete_of_returned`: if no hook fails, `stop` returns with the hooks run and
  the context cancelled;
* `stop_completes_iff`: it always does exactly then, as it returns at the first
  hook that fails.
-/

namespace Apiserver.Proc

open Go Transition

inductive Signal
  | interrupt
  | terminated
  | hangup
  deriving DecidableEq

/-- `HookOps` of a stop hook, with what the hook returns. -/
structure HookOps where
  owner : String
  /-- `util.Name` of the hook. -/
  name : String
  priority : UInt16 := 0
  subPriority : UInt16 := 0
  result : Option Error := none
  deriving DecidableEq

/-- `ProcessPriority`. -/
def HookOps.processPriority (ops : HookOps) : Nat :=
  ops.priority.toNat <<< (16 - 3) + ops.subPriority.toNat

/-- `Process`: what does not change once it has started. -/
structure Process where
  name : String := ""
  noloop : Bool := false
  /-- What starting the reporter returns, if there is to be one. -/
  report : Option Error := none
  /-- The stop hooks, as they have been registered. -/
  stopHooks : List HookOps := []
  shutdownSignals : List Signal := [.interrupt, .terminated]
  shutdownSignals_ne_nil : shutdownSignals ≠ [] := by decide
  reloadSignals : List Signal := []

/-- Where the main loop is. -/
inductive Main
  | entered
  /-- In the loop, and whether it has been told to shut down. -/
  | looping (shutdown : Bool)
  /-- In a call of `stop`. -/
  | stopping
  | returned (err : Option Error)
  /-- `os.Exit(1)`. -/
  | exited
  deriving DecidableEq

/-- Where `stop` is. -/
inductive Stop
  | idle
  | called
  /-- Entered with a context that was done already. -/
  | skipped
  | running (todo : List HookOps)
  | waiting
  | closing
  | cancelled
  | returned (err : Option Error)
  deriving DecidableEq

structure State where
  main : Main := .entered
  stop : Stop := .idle
  ctxDone : Bool := false
  err : Option Error := none
  /-- The stop hooks that have been run. -/
  ran : List HookOps := []
  deriving DecidableEq

namespace Process

variable (p : Process)

/-- The stop hooks as `start` has sorted them. -/
def sortedHooks : List HookOps := sliceStable HookOps.processPriority p.stopHooks

/-- The error `stop` records for a hook. -/
def hookErr (ops : HookOps) (err : Error) : Error :=
  ops.owner ++ "." ++ ops.name ++ "() err: " ++ err

/-- The error `stop` records for goroutines that do not end. -/
def timeoutErr : Error := p.name ++ " closed after timeout 12s"

/-- A step of the main loop. -/
inductive MainStep : State → State → Prop
  | noloop {s : State} (hm : s.main = .entered) (hn : p.noloop = true) :
      MainStep s { s with main := .stopping, stop := .called }
  | report {s : State} {err : Error} (hm : s.main = .entered) (hn : p.noloop = false)
      (hr : p.report = some err) : MainStep s { s with main := .returned (some err) }
  | loop {s : State} (hm : s.main = .entered) (hn : p.noloop = false) (hr : p.report = none) :
      MainStep s { s with main := .looping false }
  | done {s : State} {shutdown : Bool} (hm : s.main = .looping shutdown) (hd : s.ctxDone = true) :
      MainStep s { s with main := .returned s.err }
  | shutdown {s : State} {sig : Signal} (hm : s.main = .looping false)
      (hsig : sig ∈ p.shutdownSignals) :
      MainStep s { s with main := .looping true, stop := .called }
  | exit {s : State} {sig : Signal} (hm : s.main = .looping true)
      (hsig : sig ∈ p.shutdownSignals) : MainStep s { s with main := .exited }
  | reload {s : State} {shutdown : Bool} {sig : Signal} (hm : s.main = .looping shutdown)
      (hsig : sig ∉ p.shutdownSignals) (hsig' : sig ∈ p.reloadSignals) :
      MainStep s { s with err := none }
  | reloadFailed {s : State} {shutdown : Bool} {sig : Signal} (err : Error)
      (hm : s.main = .looping shutdown) (hsig : sig ∉ p.shutdownSignals)
      (hsig' : sig ∈ p.reloadSignals) :
      MainStep s { s with err := some err, main := .returned (some err) }
  /-- Without a loop, the result of `stop` is that of the main loop. -/
  | stopped {s : State} {err : Option Error} (hm : s.main = .stopping)
      (hs : s.stop = .returned err ∨ (s.stop = .skipped ∧ err = none)) :
      MainStep s { s with main := .returned err }

/-- A step of `stop`. -/
inductive StopStep : State → State → Prop
  | skip {s : State} (hs : s.stop = .called) (hd : s.ctxDone = true) :
      StopStep s { s with stop := .skipped }
  | enter {s : State} (hs : s.stop = .called) (hd : s.ctxDone = false) :
      StopStep s { s with stop := .running p.sortedHooks.reverse }
  | hook {s : State} {ops : HookOps} {todo : List HookOps} (hs : s.stop = .running (ops :: todo))
      (hr : ops.result = none) :
      StopStep s { s with stop := .running todo, ran := s.ran ++ [ops] }
  | hookFailed {s : State} {ops : HookOps} {todo : List HookOps} {err : Error}
      (hs : s.stop = .running (ops :: todo)) (hr : ops.result = some err) :
      StopStep s { s with
        stop := .returned (some (hookErr ops err)), ran := s.ran ++ [ops]
        err := some (hookErr ops err) }
  | wait {s : State} (hs : s.stop = .running []) : StopStep s { s with stop := .waiting }
  /-- The goroutines of the wait group are done, -/
  | wgDone {s : State} (hs : s.stop = .waiting) : StopStep s { s with stop := .closing }
  /-- or the time is up. -/
  | timeout {s : State} (hs : s.stop = .waiting) :
      StopStep s { s with stop := .closing, err := some p.timeoutErr }
  | cancel {s : State} (hs : s.stop = .closing) :
      StopStep s { s with stop := .cancelled, ctxDone := true }
  | ret {s : State} (hs : s.stop = .cancelled) : StopStep s { s with stop := .returned s.err }

/-- A process, until it exits. -/
def system : System State where
  init s := s = {}
  step s t := s.main ≠ .exited ∧
    (p.MainStep s t ∨ p.StopStep s t ∨ t = { s with ctxDone := true })

/-! ## The hooks that have been run -/

/-- What `stop` has run at any time. -/
def Accounts (s : State) : Prop :=
  match s.stop with
  | .idle | .called | .skipped => s.ran = []
  | .running todo =>
    s.ran ++ todo = p.sortedHooks.reverse ∧ ∀ ops ∈ s.ran, ops.result = none
  | .waiting | .closing =>
    s.ran = p.sortedHooks.reverse ∧ ∀ ops ∈ s.ran, ops.result = none
  | .cancelled =>
    s.ctxDone = true ∧ s.ran = p.sortedHooks.reverse ∧ ∀ ops ∈ s.ran, ops.result = none
  | .returned _ =>
    (s.ctxDone = true ∧ s.ran = p.sortedHooks.reverse) ∨
      ∃ ops ∈ p.sortedHooks.reverse, ops.result ≠ none

/-- `stop` is called once, when the main loop leaves its first state. -/
structure Inv (s : State) : Prop where
  idle : s.main = .entered ∨ s.main = .looping false → s.stop = .idle
  accounts : p.Accounts s

variable {p}

theorem Accounts.of_cancelled {s : State} (h : p.Accounts s) :
    p.Accounts { s with ctxDone := true } := by
  obtain ⟨main, stop, ctxDone, err, ran⟩ := s
  cases stop with
  | cancelled => exact ⟨rfl, h.2⟩
  | returned _ => exact h.imp_left fun h => ⟨rfl, h.2⟩
  | _ => exact h

/-- The main loop keeps the invariant. -/
theorem Inv.mainStep {s t : State} (h : p.Inv s) (hst : p.MainStep s t) : p.Inv t := by
  have hacc := h.accounts
  cases hst with
  | noloop hm _ =>
    refine ⟨by simp, ?_⟩
    have hidle := h.idle (.inl hm)
    rw [Accounts, hidle] at hacc
    exact hacc
  | report => exact ⟨by simp, hacc⟩
  | loop hm => exact ⟨fun _ => h.idle (.inl hm), hacc⟩
  | done => exact ⟨by simp, hacc⟩
  | shutdown hm _ =>
    refine ⟨by simp, ?_⟩
    have hidle := h.idle (.inr hm)
    rw [Accounts, hidle] at hacc
    exact hacc
  | exit => exact ⟨by simp, hacc⟩
  | reload => exact ⟨h.idle, hacc⟩
  | reloadFailed => exact ⟨by simp, hacc⟩
  | stopped => exact ⟨by simp, hacc⟩

/-- The steps of `stop` are taken once it has been called. -/
theorem StopStep.stop_ne_idle {s t : State} (hst : p.StopStep s t) : s.stop ≠ .idle := by
  cases hst <;> simp_all

theorem StopStep.main_eq {s t : State} (hst : p.StopStep s t) : t.main = s.main := by
  cases hst <;> rfl

/-- Every hook of `stop` is accounted for. -/
theorem Accounts.stopStep {s t : State} (h : p.Accounts s) (hst : p.StopStep s t) :
    p.Accounts t := by
  cases hst with
  | skip hs =>
    rw [Accounts, hs] at h
    exact h
  | enter hs =>
    rw [Accounts, hs] at h
    exact ⟨by rw [h, List.nil_append], by simp [h]⟩
  | hook hs hr =>
    rw [Accounts, hs] at h
    refine ⟨by simpa using h.1, ?_⟩
    simpa [or_imp, forall_and, hr] using h.2
  | @hookFailed ops _ _ hs hr =>
    rw [Accounts, hs] at h
    refine .inr ⟨ops, ?_, by simp [hr]⟩
    rw [← h.1]
    exact List.mem_append_right _ List.mem_cons_self
  | wait hs =>
    rw [Accounts, hs] at h
    exact ⟨by simpa using h.1, h.2⟩
  | wgDone hs =>
    rw [Accounts, hs] at h
    exact h
  | timeout hs =>
    rw [Accounts, hs] at h
    exact h
  | cancel hs =>
    rw [Accounts, hs] at h
    exact ⟨rfl, h⟩
  | ret hs =>
    rw [Accounts, hs] at h
    exact .inl ⟨h.1, h.2.1⟩

theorem Inv.stopStep {s t : State} (h : p.Inv s) (hst : p.StopStep s t) : p.Inv t := by
  refine ⟨fun hm => ?_, h.accounts.stopStep hst⟩
  rw [hst.main_eq] at hm
  exact absurd (h.idle hm) hst.stop_ne_idle

/-- At any time, the hooks that have been run and those to be run are all of
    them, in the reverse order, and none has failed as long as `stop` goes on. -/
theorem stopping_invariant (p : Process) : p.system.Invariant p.Inv where
  init s hs := by
    subst hs
    exact ⟨fun _ => rfl, rfl⟩
  step s t h hst := by
    rcases hst.2 with hmain | hstop | rfl
    · exact h.mainStep hmain
    · exact h.stopStep hstop
    · exact ⟨h.idle, h.accounts.of_cancelled⟩

/-! ## Progress -/

/-- The steps `stop` has left, at most. -/
def remaining (p : Process) : Stop → Nat
  | .called => p.sortedHooks.length + 6
  | .running todo => todo.length + 5
  | .waiting => 3
  | .closing => 2
  | .cancelled => 1
  | .idle | .skipped | .returned _ => 0

/-- Once `stop` has been called it returns, if the process goes on. -/
theorem stop_can_return {s : State} (hs : s.stop ≠ .idle) (hm : s.main ≠ .exited) :
    ∃ t, p.system.Run s t ∧ (t.stop = .skipped ∨ ∃ err, t.stop = .returned err) := by
  suffices h : ∀ s : State, s.stop ≠ .idle ∧ s.main ≠ .exited →
      ¬ (s.stop = .skipped ∨ ∃ err, s.stop = .returned err) →
      ∃ t, p.system.step s t ∧ (t.stop ≠ .idle ∧ t.main ≠ .exited) ∧
        p.remaining t.stop < p.remaining s.stop by
    obtain ⟨t, hrun, -, ht⟩ :=
      System.exists_run_of_measure (fun s : State => p.remaining s.stop) h (And.intro hs hm)
    exact ⟨t, hrun, ht⟩
  rintro s ⟨hidle, hexit⟩ hgoal
  have hstep : ∀ {t}, p.StopStep s t → p.system.step s t := fun h => ⟨hexit, .inr (.inl h)⟩
  cases hstop : s.stop with
  | idle => exact absurd hstop hidle
  | called =>
    cases hd : s.ctxDone with
    | true => exact ⟨_, hstep (.skip hstop hd), ⟨by simp, hexit⟩, by simp [remaining]⟩
    | false => exact ⟨_, hstep (.enter hstop hd), ⟨by simp, hexit⟩, by simp [remaining]⟩
  | skipped => exact absurd (.inl hstop) hgoal
  | running todo =>
    cases todo with
    | nil => exact ⟨_, hstep (.wait hstop), ⟨by simp, hexit⟩, by simp [remaining]⟩
    | cons ops todo =>
      cases hr : ops.result with
      | none => exact ⟨_, hstep (.hook hstop hr), ⟨by simp, hexit⟩, by simp [remaining]⟩
      | some err => exact ⟨_, hstep (.hookFailed hstop hr), ⟨by simp, hexit⟩, by simp [remaining]⟩
  | waiting => exact ⟨_, hstep (.wgDone hstop), ⟨by simp, hexit⟩, by simp [remaining]⟩
  | closing => exact ⟨_, hstep (.cancel hstop), ⟨by simp, hexit⟩, by simp [remaining]⟩
  | cancelled => exact ⟨_, hstep (.ret hstop), ⟨by simp, hexit⟩, by simp [remaining]⟩
  | returned err => exact absurd (.inr ⟨err, hstop⟩) hgoal

/-! ## Completion -/

variable (p)

/-- `stop` has done all it is for, and the main loop can return. -/
structure Complete (s : State) : Prop where
  ran : s.ran = p.sortedHooks.reverse
  ctxDone : s.ctxDone = true
  main : ∀ shutdown, s.main = .looping shutdown →
    p.system.step s { s with main := .returned s.err }

/-- Whenever `stop` returns, having been entered with a live context, it has
    completed. -/
def StopCompletes : Prop :=
  ∀ s, p.system.Reachable s → (∃ err, s.stop = .returned err) → p.Complete s

variable {p}

theorem mem_sortedHooks {ops : HookOps} : ops ∈ p.sortedHooks.reverse ↔ ops ∈ p.stopHooks := by
  rw [List.mem_reverse]
  exact (sliceStable_isSortOf _ p.stopHooks).perm.mem_iff

/-- If no hook fails, `stop` returns with all hooks run and the context cancelled. -/
theorem complete_of_returned (hok : ∀ ops ∈ p.stopHooks, ops.result = none) {s : State}
    (hs : p.system.Reachable s) {err : Option Error} (hret : s.stop = .returned err) :
    p.Complete s := by
  have hacc := ((stopping_invariant p).reachable hs).accounts
  rw [Accounts, hret] at hacc
  rcases hacc with ⟨hd, hran⟩ | ⟨ops, hops, hfail⟩
  · exact ⟨hran, hd, fun shutdown hm => ⟨by simp [hm], .inl (.done hm hd)⟩⟩
  · exact absurd (hok ops (mem_sortedHooks.1 hops)) hfail

/-- The main loop gets as far as running the hooks, unless the reporter fails. -/
theorem exists_running (h : p.noloop = true ∨ p.report = none) :
    ∃ s, p.system.Reachable s ∧ s.stop = .running p.sortedHooks.reverse ∧ s.ctxDone = false ∧
      s.main ≠ .exited := by
  have hinit : p.system.Reachable {} := .of_init rfl
  cases hn : p.noloop with
  | true =>
    have h₁ := hinit.step ⟨by decide, .inl (.noloop rfl hn)⟩
    exact ⟨_, h₁.step ⟨by decide, .inr (.inl (.enter rfl rfl))⟩, rfl, rfl, by simp⟩
  | false =>
    have hr : p.report = none := h.resolve_left (by simp [hn])
    obtain ⟨sig, hsig⟩ := List.exists_mem_of_ne_nil _ p.shutdownSignals_ne_nil
    have h₁ := hinit.step ⟨by decide, .inl (.loop rfl hn hr)⟩
    have h₂ := h₁.step ⟨by decide, .inl (.shutdown rfl hsig)⟩
    exact ⟨_, h₂.step ⟨by decide, .inr (.inl (.enter rfl rfl))⟩, rfl, rfl, by simp⟩

/-- With a hook that fails among those to be run, `stop` returns without having
    cancelled the context. -/
theorem exists_returned_of_fails {todo : List HookOps} (hfail : ∃ ops ∈ todo, ops.result ≠ none)
    {s : State} (hs : s.stop = .running todo) (hd : s.ctxDone = false) (hm : s.main ≠ .exited) :
    ∃ t, p.system.Run s t ∧ (∃ err, t.stop = .returned err) ∧ t.ctxDone = false := by
  induction todo generalizing s with
  | nil =>
    obtain ⟨ops, hops, -⟩ := hfail
    exact absurd hops List.not_mem_nil
  | cons ops todo ih =>
    cases hr : ops.result with
    | some err =>
      exact ⟨_, .single ⟨hm, .inr (.inl (.hookFailed hs hr))⟩, ⟨_, rfl⟩, hd⟩
    | none =>
      -- This hook does not fail, so one of the others does.
      have hfail' : ∃ ops ∈ todo, ops.result ≠ none := by
        obtain ⟨ops', hmem, hne⟩ := hfail
        rcases List.mem_cons.1 hmem with rfl | hmem
        · exact absurd hr hne
        · exact ⟨ops', hmem, hne⟩
      obtain ⟨t, hrun, ht⟩ := ih hfail'
        (s := { s with stop := .running todo, ran := s.ran ++ [ops] }) rfl hd hm
      exact ⟨t, .head ⟨hm, .inr (.inl (.hook hs hr))⟩ hrun, ht⟩

/-- If the reporter fails, `stop` is not called. -/
theorem idle_of_report (hn : p.noloop = false) (hr : p.report ≠ none) :
    p.system.Invariant fun s =>
      s.stop = .idle ∧ (s.main = .entered ∨ ∃ err, s.main = .returned err) where
  init s hs := by
    subst hs
    exact ⟨rfl, .inl rfl⟩
  step s t h hst := by
    obtain ⟨hidle, hmain⟩ := h
    rcases hst.2 with hst | hst | rfl
    · cases hst <;> simp_all
    · cases hst <;> simp_all
    · exact ⟨hidle, hmain⟩

/-- Shutdown always completes exactly when no stop hook fails (or the process
    never gets to its main loop, as its reporter fails): `stop` returns at the
    first hook that does, and leaves the context as it is. -/
theorem stop_completes_iff (p : Process) :
    p.StopCompletes ↔
      (p.noloop = false ∧ p.report ≠ none) ∨ ∀ ops ∈ p.stopHooks, ops.result = none := by
  constructor
  · intro h
    by_cases hrun : p.noloop = true ∨ p.report = none
    · -- A hook that fails gives a run in which `stop` returns too early.
      refine .inr fun ops hops => ?_
      by_contra hfail
      obtain ⟨s, hs, hstop, hd, hm⟩ := exists_running hrun
      obtain ⟨t, hrun, hret, hd'⟩ :=
        exists_returned_of_fails ⟨ops, mem_sortedHooks.2 hops, hfail⟩ hstop hd hm
      have hdone := (h t (hs.run hrun) hret).ctxDone
      rw [hd'] at hdone
      cases hdone
    · push Not at hrun
      exact .inl ⟨by simpa using hrun.1, hrun.2⟩
  · rintro (⟨hn, hr⟩ | hok) s hs ⟨err, hret⟩
    · have hidle := ((idle_of_report hn hr).reachable hs).1
      rw [hret] at hidle
      cases hidle
    · exact complete_of_returned hok hs hret

/-- Two modules, the second of which is stopped first and fails. -/
def exampleProcess : Process where
  stopHooks :=
    [{ owner := "db", name := "stop", priority := 8 },
     { owner := "http", name := "stop", priority := 16, result := some "listener closed" }]

/-- It leaves the process running, with the database not stopped. -/
theorem exampleProcess_not_completes :
    ¬ exampleProcess.StopCompletes ∧
    ∃ s, exampleProcess.system.Reachable s ∧ s.ctxDone = false ∧ s.main = .looping true ∧
      s.stop = .returned (some "http.stop() err: listener closed") ∧
      s.ran.map HookOps.owner = ["http"] := by
  have hinit : exampleProcess.system.Reachable {} := .of_init rfl
  have h₁ := hinit.step ⟨by decide, .inl (.loop rfl rfl rfl)⟩
  have hsig : Signal.interrupt ∈ exampleProcess.shutdownSignals := by decide
  have h₂ := h₁.step ⟨by decide, .inl (.shutdown rfl hsig)⟩
  have h₃ := h₂.step ⟨by decide, .inr (.inl (.enter rfl rfl))⟩
  have hsorted : exampleProcess.sortedHooks.reverse = exampleProcess.stopHooks.reverse := by decide
  have h₄ := h₃.step ⟨by decide, .inr (.inl (.hookFailed (congrArg Stop.running hsorted) rfl))⟩
  refine ⟨fun h => ?_, _, h₄, rfl, rfl, rfl, rfl⟩
  exact absurd (h _ h₄ ⟨_, rfl⟩).ctxDone (by decide)

end Process

end Apiserver.Proc
