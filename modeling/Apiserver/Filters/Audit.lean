import Apiserver.Filters.Authorization

/-!
# The audit filters

A request that the audit policy wants recorded is recorded when it is received
and when the response is complete, or when its handler panics; a long running
one also when its response starts (`pkg/filters/audit.go`). A failed
authentication is recorded when the response to it starts
(`pkg/filters/authn_audit.go`).

* `withAudit_transparent`, `withFailedAuthenticationAudit_transparent`: the
  filters have no part in the decisions about a request.
-/

namespace Apiserver

variable {σ : Type}

/-- A sink and a policy for audit events, and the check for long running requests. -/
structure Auditing (σ : Type) where
  /-- `LevelAndStages` of the policy checker. -/
  levelAndStages : Attributes → Audit.Level × List Audit.Stage
  /-- `ProcessEvents` of the sink, on the event in a stage. -/
  processEvents : Audit.Stage → σ → Bool × σ
  longRunning : HttpRequest → Bool

namespace Auditing

variable (d : Auditing σ)

/-- `processAuditEvent`: what happens, whether the event was processed, and the state. -/
def processAuditEvent (omitStages : List Audit.Stage) (stage : Audit.Stage) (s : σ) :
    List Event × Bool × σ :=
  if stage ∈ omitStages then ([], true, s)
  else
    let (processed, s) := d.processEvents stage s
    ([.audit stage], processed, s)

/-- `createAuditEventAndAttachToContext`: an error, or the stages to leave out,
    unless there is nothing to audit. -/
def createAuditEvent (req : HttpRequest) : Except Error (Option (List Audit.Stage)) :=
  match getAuthorizerAttributes req.ctx with
  | .error err => .error ("failed to GetAuthorizerAttributes: " ++ err)
  | .ok a => match d.levelAndStages a with
    | (.none, _) => .ok none
    | (_, omitStages) => .ok (some omitStages)

/-- The event writes to the response. -/
def writes : Event → Bool
  | .respond _ | .write _ => true
  | _ => false

/-- The trace of a handler whose response writer is intercepted: what happens in
    the stage `ResponseStarted` goes before the first write. -/
def intercept (started : List Event) : List Event → List Event
  | [] => []
  | x :: l => if writes x then started ++ x :: l else x :: intercept started l

/-- An inner handler, its response writer intercepted if a sink is given for it.
    The state the sink leaves is that after the handler, which does not see it. -/
def serveIntercepted (sink : Bool) (omitStages : List Audit.Stage) (r : Served σ) : Served σ :=
  if sink && r.trace.any writes then
    let (started, _, s) := d.processAuditEvent omitStages .responseStarted r.state
    { r with trace := intercept started r.trace, state := s }
  else r

/-- The deferred function of `WithAudit`. -/
def complete (longRunning : Bool) (omitStages : List Audit.Stage) (r : Served σ) : Served σ :=
  if r.panicked then
    let (events, _, s) := d.processAuditEvent omitStages .panic r.state
    { r with trace := r.trace ++ events, state := s }
  else
    -- Nothing was written: the start of the response is faked.
    let (started, _, s) := if longRunning && !r.trace.any writes then
        d.processAuditEvent omitStages .responseStarted r.state
      else ([], true, r.state)
    let (events, _, s) := d.processAuditEvent omitStages .responseComplete s
    { r with trace := r.trace ++ started ++ events, state := s }

end Auditing

/-- `WithAudit`; without a sink or a policy it does nothing. -/
def withAudit (auditing : Option (Auditing σ)) : Filter σ :=
  match auditing with
  | none => id
  | some d => fun handler req s => match d.createAuditEvent req with
    | .error _ =>
      { trace := [.respond (.internalError "failed to create audit event")], state := s }
    | .ok none => handler req s
    | .ok (some omitStages) =>
      match d.processAuditEvent omitStages .requestReceived s with
      | (events, false, s) =>
        { trace := events ++ [.respond (.internalError "failed to store audit event")]
          state := s }
      | (events, true, s) =>
        let longRunning := d.longRunning req
        (d.complete longRunning omitStages
          (d.serveIntercepted longRunning omitStages (handler req s))).after events

/-- `WithFailedAuthenticationAudit`. -/
def withFailedAuthenticationAudit (auditing : Option (Auditing σ)) : Filter σ :=
  match auditing with
  | none => id
  | some d => fun failedHandler req s => match d.createAuditEvent req with
    | .error _ =>
      { trace := [.respond (.internalError "failed to create audit event")], state := s }
    | .ok none => failedHandler req s
    | .ok (some omitStages) => d.serveIntercepted true omitStages (failedHandler req s)

/-! ## No part in the decisions -/

namespace Auditing

variable (d : Auditing σ)

@[simp] theorem mediation_processAuditEvent (omitStages : List Audit.Stage) (stage : Audit.Stage)
    (s : σ) : mediation (d.processAuditEvent omitStages stage s).1 = [] := by
  rw [processAuditEvent]
  split <;> rfl

theorem mediation_intercept {started : List Event} (h : mediation started = []) (l : List Event) :
    mediation (intercept started l) = mediation l := by
  induction l with
  | nil => rfl
  | cons x l ih =>
    rw [intercept]
    split
    · rw [mediation_append, h, List.nil_append]
    · simp only [mediation, List.filter_cons] at ih ⊢
      rw [ih]

@[simp] theorem mediation_serveIntercepted (sink : Bool) (omitStages : List Audit.Stage)
    (r : Served σ) :
    mediation (d.serveIntercepted sink omitStages r).trace = mediation r.trace := by
  rw [serveIntercepted]
  split
  · exact mediation_intercept (d.mediation_processAuditEvent _ _ _) _
  · rfl

@[simp] theorem mediation_complete (longRunning : Bool) (omitStages : List Audit.Stage)
    (r : Served σ) : mediation (d.complete longRunning omitStages r).trace = mediation r.trace := by
  rw [complete]
  split
  · simp
  · dsimp only
    split <;> simp

end Auditing

/-- Auditing does not show in what a request meets. -/
theorem withAudit_transparent (auditing : Option (Auditing σ)) :
    Transparent (withAudit auditing) := by
  cases auditing with
  | none => exact Transparent.id
  | some d =>
    intro inner req s
    rw [withAudit]
    dsimp only
    split
    · exact .inl rfl
    · exact .inr ⟨s, rfl⟩
    case h_3 omitStages _ =>
      have hevents := d.mediation_processAuditEvent omitStages .requestReceived s
      split
      case h_1 heq =>
        rw [heq] at hevents
        exact .inl (by simpa using hevents)
      case h_2 events s' heq =>
        rw [heq] at hevents
        exact .inr ⟨s', by simpa using hevents⟩

theorem withFailedAuthenticationAudit_transparent (auditing : Option (Auditing σ)) :
    Transparent (withFailedAuthenticationAudit auditing) := by
  cases auditing with
  | none => exact Transparent.id
  | some d =>
    intro inner req s
    rw [withFailedAuthenticationAudit]
    dsimp only
    split
    · exact .inl rfl
    · exact .inr ⟨s, rfl⟩
    · exact .inr ⟨s, by simp⟩

end Apiserver
