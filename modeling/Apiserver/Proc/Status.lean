import Apiserver.Proc.Hooks

/-!
# The status of a process

A process has a status: it is initialised, running, reloading or has exited. It is set
by `start`, `reload` and `stop`, each of which runs hooks and may return early. What
happens to a process is a sequence of *points*, an event and the status of the process
at it.

* `Event.next`: the life cycle, what the status should be after an event;
* `step_cases`: a call follows it unless it has an event at which the process should not be
  running, as `Set` does not look at the status it is given;
* `status_follows_iff`: the status follows the life cycle exactly as long as no reload is
  begun and no stop runs all of its hooks.
-/

namespace Apiserver.Proc

open Go

inductive ProcessStatus
  | init
  | pending
  | running
  | reloading
  | exit
  deriving DecidableEq

/-- `Set`, of a status to another. -/
def ProcessStatus.set (_ _ : ProcessStatus) : ProcessStatus := .running

/-- What happens to a process. -/
inductive Event
  | hook (action : ProcessAction) (h : Hook)
  | started
  | startFailed (err : Error)
  | reloadBegan
  | reloaded
  | reloadFailed (err : Error)
  /-- `stop` finds that the context is done. -/
  | stopSkipped
  | stopHooksRan
  | stopFailed (err : Error)
  | stopped (err : Option Error)
  /-- A parent of the context is cancelled. -/
  | cancelled

/-- An event, and the status of the process at it. -/
abbrev Point := Event × ProcessStatus

/-- What changes in a process. -/
structure Lifecycle where
  name : String := ""
  hooks : HookTable
  status : ProcessStatus := .init
  err : Option Error := none
  ctxDone : Bool := false

/-- A call, with what it finds: the results of the hooks and, for `reload`, the error of
    parsing the configuration, for `stop`, whether the time is up before the goroutines are
    done. -/
inductive Call
  | start (result : ℕ → Option Error)
  | reload (parsed : Option Error) (result : ℕ → Option Error)
  | stop (timeout : Bool) (result : ℕ → Option Error)
  /-- A parent of the context is cancelled. -/
  | cancel

/-- The points at which hooks are run. -/
def hookPoints (action : ProcessAction) (status : ProcessStatus) (ran : List Hook) : List Point :=
  ran.map fun h => (.hook action h, status)

namespace Lifecycle

variable (s : Lifecycle)

/-- `start`. -/
def start (result : ℕ → Option Error) : Lifecycle × List Point :=
  let r := s.hooks.start result
  let s := { s with hooks := r.hooks }
  let points := hookPoints .start s.status r.ran
  match r.failed with
  | some (h, err) => (s, points ++ [(.startFailed (h.error err), s.status)])
  | none =>
    let s := { s with status := s.status.set .running }
    (s, points ++ [(.started, s.status)])

/-- `reload`. -/
def reload (parsed : Option Error) (result : ℕ → Option Error) : Lifecycle × List Point :=
  let s := { s with status := s.status.set .reloading }
  let began : Point := (.reloadBegan, s.status)
  match parsed with
  | some err => ({ s with err := some err }, [began, (.reloadFailed err, s.status)])
  | none =>
    let (ran, failed) := runHooks result 0 (s.hooks .reload)
    let points := began :: hookPoints .reload s.status ran
    match failed with
    | some (_, err) => ({ s with err := some err }, points ++ [(.reloadFailed err, s.status)])
    | none =>
      let s := { s with status := s.status.set .running, err := none }
      (s, points ++ [(.reloaded, s.status)])

/-- `stop`. -/
def stop (timeout : Bool) (result : ℕ → Option Error) : Lifecycle × List Point :=
  if s.ctxDone then (s, [(.stopSkipped, s.status)])
  else
    let (ran, failed) := s.hooks.stop s.ctxDone result
    let points := hookPoints .stop s.status ran
    match failed with
    | some (h, err) =>
      ({ s with err := some (h.error err) }, points ++ [(.stopFailed (h.error err), s.status)])
    | none =>
      let s := { s with status := s.status.set .exit }
      let points := points ++ [(.stopHooksRan, s.status)]
      let err := if timeout then some (s.name ++ " closed after timeout 12s") else s.err
      let s := { s with err, ctxDone := true }
      (s, points ++ [(.stopped s.err, s.status)])

def step : Call → Lifecycle × List Point
  | .start result => s.start result
  | .reload parsed result => s.reload parsed result
  | .stop timeout result => s.stop timeout result
  | .cancel => ({ s with ctxDone := true }, [(.cancelled, s.status)])

/-- The points of some calls. -/
def trace (s : Lifecycle) : List Call → List Point
  | [] => []
  | call :: calls => (s.step call).2 ++ trace (s.step call).1 calls

end Lifecycle

/-! ## The life cycle -/

/-- The status after an event: a process runs when it has started, reloads until it has
    reloaded, and has exited when the stop hooks have been run. -/
def Event.next (status : ProcessStatus) : Event → ProcessStatus
  | .started => .running
  | .reloadBegan => .reloading
  | .reloaded => .running
  | .stopHooksRan => .exit
  | _ => status

/-- The points are those of the life cycle, from a status on. -/
def Follows : ProcessStatus → List Point → Prop
  | _, [] => True
  | status, (event, actual) :: points =>
    actual = event.next status ∧ Follows (event.next status) points

/-- The status of the life cycle after some points. -/
def lastStatus (status : ProcessStatus) (points : List Point) : ProcessStatus :=
  points.foldl (fun status point => point.1.next status) status

/-- An event at which the status should be another than `STATUS_RUNNING`. -/
def Event.isOther : Event → Bool
  | .reloadBegan => true
  | .stopHooksRan => true
  | _ => false

theorem follows_append {status : ProcessStatus} {points points' : List Point} :
    Follows status (points ++ points') ↔
      Follows status points ∧ Follows (lastStatus status points) points' := by
  induction points generalizing status with
  | nil => simp [Follows, lastStatus]
  | cons point points ih => simp only [List.cons_append, Follows, ih, lastStatus, List.foldl_cons,
      and_assoc]

/-- While hooks are run, the status stays. -/
theorem follows_hookPoints (action : ProcessAction) (status : ProcessStatus) (ran : List Hook) :
    Follows status (hookPoints action status ran) ∧
      lastStatus status (hookPoints action status ran) = status := by
  induction ran with
  | nil => exact ⟨trivial, rfl⟩
  | cons h ran ih => exact ⟨⟨rfl, ih.1⟩, ih.2⟩

variable {action : ProcessAction} {status actual : ProcessStatus}

theorem isOther_hookPoints {status : ProcessStatus} {ran : List Hook} :
    ∀ point ∈ hookPoints action status ran, point.1.isOther = false := by
  simp [hookPoints, Event.isOther]

/-- Hooks are run, and then something happens. -/
theorem follows_hookPoints_concat {ran : List Hook} {event : Event} :
    Follows status (hookPoints action status ran ++ [(event, actual)]) ↔
      actual = event.next status := by
  obtain ⟨hfollows, hlast⟩ := follows_hookPoints action status ran
  rw [follows_append, hlast]
  simp [hfollows, Follows]

theorem lastStatus_hookPoints_concat {ran : List Hook} {event : Event} :
    lastStatus status (hookPoints action status ran ++ [(event, actual)]) = event.next status := by
  rw [lastStatus, List.foldl_concat]
  exact congrArg event.next (follows_hookPoints action status ran).2

theorem isOther_hookPoints_concat {ran : List Hook} {event : Event} (h : event.isOther = false) :
    ∀ point ∈ hookPoints action status ran ++ [(event, actual)], point.1.isOther = false := by
  rw [List.forall_mem_append]
  exact ⟨isOther_hookPoints, by simpa using h⟩

namespace Lifecycle

/-- A call follows the life cycle, or has an event at which the status should be another
    than it is. -/
theorem step_cases (s : Lifecycle) (call : Call) :
    (Follows s.status (s.step call).2 ∧
        lastStatus s.status (s.step call).2 = (s.step call).1.status ∧
        ∀ point ∈ (s.step call).2, point.1.isOther = false) ∨
      ¬ Follows s.status (s.step call).2 ∧ ∃ point ∈ (s.step call).2, point.1.isOther = true := by
  cases call with
  | start result =>
    refine .inl ?_
    simp only [step, start]
    cases (s.hooks.start result).failed with
    | some failed =>
      exact ⟨follows_hookPoints_concat.2 rfl, lastStatus_hookPoints_concat,
        isOther_hookPoints_concat rfl⟩
    | none =>
      exact ⟨follows_hookPoints_concat.2 rfl, lastStatus_hookPoints_concat,
        isOther_hookPoints_concat rfl⟩
  | reload parsed result =>
    -- The first point is that of a process that runs.
    have hpoints : ∃ points, (s.step (.reload parsed result)).2 =
        (.reloadBegan, .running) :: points := by
      simp only [step, reload]
      cases parsed with
      | some err => exact ⟨_, rfl⟩
      | none =>
        rcases hrun : runHooks result 0 (s.hooks .reload) with ⟨ran, _ | failed⟩
        · exact ⟨_, rfl⟩
        · exact ⟨_, rfl⟩
    obtain ⟨points, hpoints⟩ := hpoints
    rw [hpoints]
    refine .inr ⟨fun h => ?_, _, List.mem_cons_self, rfl⟩
    cases h.1
  | stop timeout result =>
    simp only [step, stop]
    by_cases hdone : s.ctxDone = true
    · rw [if_pos hdone]
      exact .inl ⟨⟨rfl, trivial⟩, rfl, by simp [Event.isOther]⟩
    · rw [if_neg hdone]
      rcases s.hooks.stop s.ctxDone result with ⟨ran, _ | failed⟩
      · refine .inr ⟨fun h => ?_, (.stopHooksRan, .running), by simp [ProcessStatus.set], rfl⟩
        have hran := follows_hookPoints_concat.1 (follows_append.1 h).1
        cases hran
      · exact .inl ⟨follows_hookPoints_concat.2 rfl, lastStatus_hookPoints_concat,
          isOther_hookPoints_concat rfl⟩
  | cancel => exact .inl ⟨⟨rfl, trivial⟩, rfl, by simp [step, Event.isOther]⟩

/-- From any state on, the status follows the life cycle exactly as long as there is no event
    at which it should be another. -/
theorem follows_trace_iff (s : Lifecycle) (calls : List Call) :
    Follows s.status (s.trace calls) ↔ ∀ point ∈ s.trace calls, point.1.isOther = false := by
  induction calls generalizing s with
  | nil => simp [trace, Follows]
  | cons call calls ih =>
    rw [trace, follows_append, List.forall_mem_append]
    rcases s.step_cases call with ⟨hfollows, hlast, hnone⟩ | ⟨hnot, point, hmem, hother⟩
    · rw [hlast, ih]
      exact ⟨fun h => ⟨hnone, h.2⟩, fun h => ⟨hfollows, h.2⟩⟩
    · refine ⟨fun h => absurd h.1 hnot, fun h => ?_⟩
      have hfalse := h.1 point hmem
      rw [hother] at hfalse
      cases hfalse

end Lifecycle

/-- The status of a process follows its life cycle exactly as long as no reload is begun and
    no stop runs all of its hooks. -/
theorem status_follows_iff (name : String) (hooks : HookTable) (calls : List Call) :
    let points := Lifecycle.trace { name, hooks } calls
    Follows .init points ↔
      ∀ point ∈ points, point.1 ≠ .reloadBegan ∧ point.1 ≠ .stopHooksRan := by
  intro points
  have hother : ∀ event : Event, event.isOther = false ↔
      event ≠ .reloadBegan ∧ event ≠ .stopHooksRan := by
    intro event
    cases event <;> simp [Event.isOther]
  have hiff := Lifecycle.follows_trace_iff { name, hooks } calls
  simp only [hother] at hiff
  exact hiff

/-- A process without hooks that is started and stopped has the status of one that runs. -/
theorem status_after_stop :
    let calls : List Call := [.start fun _ => none, .stop false fun _ => none]
    let points := Lifecycle.trace { hooks := newHookTable } calls
    points = [(.started, .running), (.stopHooksRan, .running), (.stopped none, .running)] ∧
      ¬ Follows .init points := by
  refine ⟨rfl, fun h => ?_⟩
  cases h.2.1

end Apiserver.Proc
