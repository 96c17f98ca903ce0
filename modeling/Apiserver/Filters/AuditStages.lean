import Apiserver.Audit.Event
import Apiserver.Filters.Audit

/-!
# The stages of an audited request

`Apiserver.Filters.Audit` models the audit filter at the level of the handler
chain. Here is the filter (`pkg/filters/audit.go`) as it is written: one event
that the filter, the response writer it puts before that of the server, and the
handlers inside share and change. The response writer marks the start of the
response at the first call of `Write`, `WriteHeader` or `Hijack`; a deferred
function records the end, looking at what `recover` returns to tell a panic.

What a handler does is a list of calls on the response writer and of additions
to the event (`Action`), and then its end (`Exit`). A panic has a value, which
may be nil.

* `Serving.perform`, `Serving.foldl_perform`: what the response writer has seen
  and reported after a call, and after a list of them;
* `stages_withAudit`: the stages the sink is given; `Incomplete.eq_completed`: the
  event that goes with the last one, if the response is complete;
* `followed_iff`: they are those of the protocol, and the end is that of the
  handler, unless the handler panics with nil;
* `stages_eq_coarse`: the filter of the handler chain gives the same stages.
-/

namespace Apiserver

open Audit (Stage Level Status)

/-- What the audit filter is given, and what it takes from outside. `V` is the
    type of the objects that are logged, `R` that of the values of panics. -/
structure Auditor (σ V R : Type) where
  /-- `LevelAndStages` of the policy checker. -/
  levelAndStages : Attributes → Level × List Stage
  /-- `ProcessEvents` of the sink. -/
  processEvents : Audit.Event → σ → Bool × σ
  longRunningCheck : Option (HttpRequest → Bool) := none
  /-- `req.URL.RequestURI()`. -/
  requestURI : HttpRequest → String
  /-- `auditAnnotationsFrom` the context of a request. -/
  auditAnnotations : HttpRequest → List (String × String) := fun _ => []
  /-- The id of a request that comes without one. -/
  newID : HttpRequest → String := fun _ => ""
  encoding : Audit.Encoding V
  /-- The text of the value of a panic. -/
  format : R → String

namespace Auditor

variable {σ V R : Type}

/-! ## Handlers -/

/-- How a handler ends. A panic with nil has no value. -/
inductive Exit (R : Type)
  | returned
  | panicked (value : Option R)
  deriving DecidableEq

/-- What `recover` returns in a deferred function. As the module is one of Go
    1.20, that is nil also for a panic with nil. -/
def Exit.recover : Exit R → Option R
  | .returned => none
  | .panicked value => value

/-- The calls on a response writer. -/
inductive Call
  | write
  | writeHeader (code : ℤ)
  | flush
  | hijack
  deriving DecidableEq

/-- What a handler does that the filter can see. -/
inductive Action (V : Type)
  | call (c : Call)
  | logRequestObject (obj : Option V) (subresource : String)
  | logResponseObject (obj : Option V)
  | logAnnotationEntry (key value : String)
  | logImpersonatedUser (user : UserInfo)

/-- What a handler does on a request. -/
structure Behaviour (V R : Type) where
  actions : List (Action V)
  exit : Exit R

/-! ## The filter -/

/-- A request in the filter: the event, whether the `once` of the response writer
    is done, what the sink was given, and the state of the server. -/
structure Run (σ : Type) where
  event : Audit.Event
  once : Bool := false
  sunk : List Audit.Event := []
  state : σ

/-- The event is changed. -/
def Run.mapEvent (f : Audit.Event → Audit.Event) (r : Run σ) : Run σ :=
  { r with event := f r.event }

/-- What comes of a request in the filter. -/
structure Outcome (σ R : Type) where
  /-- Whether the inner handler was called. -/
  called : Bool
  /-- The events the sink was given. -/
  sunk : List Audit.Event
  /-- An error response of the filter itself. -/
  response : Option Response := none
  exit : Exit R
  state : σ

variable (d : Auditor σ V R)

/-- Whether a request is long running, by the check if there is one. -/
def longRunning (req : HttpRequest) : Bool := d.longRunningCheck.any (· req)

/-- `createAuditEventAndAttachToContext`: an error, or the event and the stages to
    leave out, unless there is nothing to audit. -/
def createAuditEvent (req : HttpRequest) : Except Error (Option (Audit.Event × List Stage)) :=
  match getAuthorizerAttributes req.ctx with
  | .error err => .error ("failed to GetAuthorizerAttributes: " ++ err)
  | .ok a =>
    let (level, omitStages) := d.levelAndStages a
    if level = .none then .ok none
    else .ok (some (Audit.newEventFromRequest req.header (d.requestURI req) (d.newID req)
      (d.auditAnnotations req) level a, omitStages))

/-- `processAuditEvent`. -/
def processAuditEvent (omitStages : List Stage) (r : Run σ) : Bool × Run σ :=
  if r.event.stage ∈ omitStages then (true, r)
  else
    let (processed, s) := d.processEvents r.event r.state
    (processed, { r with sunk := r.sunk ++ [r.event], state := s })

/-- The event moves to a stage, and is processed. -/
def enter (omitStages : List Stage) (stage : Stage) (r : Run σ) : Bool × Run σ :=
  d.processAuditEvent omitStages (r.mapEvent ({ · with stage }))

/-- `processCode` of the response writer, which has a sink for long running requests. -/
def processCode (sink : Bool) (omitStages : List Stage) (code : ℤ) (r : Run σ) : Run σ :=
  if r.once then r
  else
    let status := r.event.responseStatus.getD {}
    let r := { r with once := true }
    let r := r.mapEvent ({ · with
      responseStatus := some { status with code := code.bmod (2 ^ 32) }
      stage := .responseStarted })
    if sink then (d.processAuditEvent omitStages r).2 else r

/-- `Write`, `WriteHeader`, `Flush` and `Hijack` of the response writer. -/
def serveCall (sink : Bool) (omitStages : List Stage) : Call → Run σ → Run σ
  | .write => d.processCode sink omitStages 200
  | .writeHeader code => d.processCode sink omitStages code
  | .flush => id
  | .hijack => d.processCode sink omitStages 101

/-- An action of the handler. -/
def perform (sink : Bool) (omitStages : List Stage) (r : Run σ) : Action V → Run σ
  | .call c => d.serveCall sink omitStages c r
  | .logRequestObject obj subresource =>
    r.mapEvent (·.logRequestObject d.encoding obj subresource)
  | .logResponseObject obj => r.mapEvent (·.logResponseObject d.encoding obj)
  | .logAnnotationEntry key value => r.mapEvent (·.logAnnotationEntry key value)
  | .logImpersonatedUser user => r.mapEvent (·.logImpersonatedUser user)

/-- The status of a response that has no status of its own. -/
def fakedSuccessStatus : Status :=
  { code := 200, status := "Success", message := "Connection closed early" }

/-- The deferred function, at the end of the handler. -/
def complete (sink : Bool) (omitStages : List Stage) (r : Run σ) (exit : Exit R) :
    Run σ × Exit R :=
  match exit.recover with
  | some value =>
    let status : Status :=
      { code := 500
        status := "Failure"
        reason := "InternalError"
        message := "APIServer panic'd: " ++ d.format value }
    let r := r.mapEvent ({ · with responseStatus := some status })
    ((d.enter omitStages .panic r).2, .panicked (some value))
  | none =>
    -- The handler returned; or it panicked with nil, which is the same here.
    let r := if r.event.responseStatus.isNone && sink then
        (d.enter omitStages .responseStarted
          (r.mapEvent ({ · with responseStatus := some fakedSuccessStatus }))).2
      else r
    let status := r.event.responseStatus.getD fakedSuccessStatus
    ((d.enter omitStages .responseComplete
      (r.mapEvent ({ · with responseStatus := some status }))).2, .returned)

/-- The handler inside the filter, and the deferred function. -/
def serve (sink : Bool) (omitStages : List Stage) (handler : Behaviour V R) (r : Run σ) :
    Run σ × Exit R :=
  d.complete sink omitStages (handler.actions.foldl (d.perform sink omitStages) r) handler.exit

/-- `WithAudit`, for a handler with the given behaviour on a request. -/
def withAudit (handler : Behaviour V R) (req : HttpRequest) (s : σ) : Outcome σ R :=
  match d.createAuditEvent req with
  | .error _ =>
    { called := false
      sunk := []
      response := some (.internalError "failed to create audit event")
      exit := .returned
      state := s }
  | .ok none => { called := true, sunk := [], exit := handler.exit, state := s }
  | .ok (some (ev, omitStages)) =>
    match d.enter omitStages .requestReceived { event := ev, state := s } with
    | (false, r) =>
      { called := false
        sunk := r.sunk
        response := some (.internalError "failed to store audit event")
        exit := .returned
        state := r.state }
    | (true, r) =>
      let (r, exit) := d.serve (d.longRunning req) omitStages handler r
      { called := true, sunk := r.sunk, exit, state := r.state }

/-! ## The event of a request -/

/-- An audited request has attributes, for which the policy wants a level other
    than `None`, and the event is made of them. -/
theorem createAuditEvent_eq_some {req : HttpRequest} {ev : Audit.Event} {omitStages : List Stage}
    (h : d.createAuditEvent req = .ok (some (ev, omitStages))) :
    ∃ a level, getAuthorizerAttributes req.ctx = .ok a ∧
      d.levelAndStages a = (level, omitStages) ∧ level ≠ .none ∧
      ev = Audit.newEventFromRequest req.header (d.requestURI req) (d.newID req)
        (d.auditAnnotations req) level a := by
  rw [createAuditEvent] at h
  split at h
  · cases h
  case h_2 a ha =>
    obtain ⟨level, omitStages', hls⟩ : ∃ l o, d.levelAndStages a = (l, o) := ⟨_, _, rfl⟩
    simp only [hls] at h
    split_ifs at h with hlevel
    · simp at h
    · simp only [Except.ok.injEq, Option.some.injEq, Prod.mk.injEq] at h
      obtain ⟨rfl, rfl⟩ := h
      exact ⟨a, level, ha, hls, hlevel, rfl⟩

/-! ## The stages the sink is given -/

/-- The stages of the events the sink was given. -/
def Run.stages (r : Run σ) : List Stage := r.sunk.map (·.stage)

/-- The stages of the events the sink was given. -/
def Outcome.stages (out : Outcome σ R) : List Stage := out.sunk.map (·.stage)

@[simp] theorem Run.event_mapEvent (f : Audit.Event → Audit.Event) (r : Run σ) :
    (r.mapEvent f).event = f r.event := rfl

@[simp] theorem Run.once_mapEvent (f : Audit.Event → Audit.Event) (r : Run σ) :
    (r.mapEvent f).once = r.once := rfl

@[simp] theorem Run.stages_mapEvent (f : Audit.Event → Audit.Event) (r : Run σ) :
    (r.mapEvent f).stages = r.stages := rfl

/-- A list of stages, short of those to leave out. -/
def kept (omitStages l : List Stage) : List Stage := l.filter (· ∉ omitStages)

theorem kept_append (omitStages l l' : List Stage) :
    kept omitStages (l ++ l') = kept omitStages l ++ kept omitStages l' := List.filter_append ..

@[simp] theorem kept_nil (omitStages : List Stage) : kept omitStages [] = [] := rfl

theorem event_processAuditEvent (omitStages : List Stage) (r : Run σ) :
    (d.processAuditEvent omitStages r).2.event = r.event := by
  rw [processAuditEvent]
  split_ifs <;> rfl

theorem once_processAuditEvent (omitStages : List Stage) (r : Run σ) :
    (d.processAuditEvent omitStages r).2.once = r.once := by
  rw [processAuditEvent]
  split_ifs <;> rfl

theorem stages_processAuditEvent (omitStages : List Stage) (r : Run σ) :
    (d.processAuditEvent omitStages r).2.stages = r.stages ++ kept omitStages [r.event.stage] := by
  rw [processAuditEvent, kept]
  split_ifs with h
  · simp [h]
  · simp [Run.stages, h]

@[simp] theorem event_enter (omitStages : List Stage) (stage : Stage) (r : Run σ) :
    (d.enter omitStages stage r).2.event = { r.event with stage } :=
  d.event_processAuditEvent ..

@[simp] theorem once_enter (omitStages : List Stage) (stage : Stage) (r : Run σ) :
    (d.enter omitStages stage r).2.once = r.once := d.once_processAuditEvent ..

@[simp] theorem stages_enter (omitStages : List Stage) (stage : Stage) (r : Run σ) :
    (d.enter omitStages stage r).2.stages = r.stages ++ kept omitStages [stage] :=
  d.stages_processAuditEvent ..

/-- The calls at which the response starts. -/
def Call.starts : Call → Bool
  | .flush => false
  | _ => true

/-- The stages up to the start of the response, for a request whose response has
    been started or not. -/
def startedStages (sink started : Bool) : List Stage :=
  if sink && started then [.responseStarted] else []

/-- What holds of a request in the filter whose response has been started or not,
    and for which the sink had been given the stages `l` before. -/
structure Serving (sink : Bool) (omitStages l : List Stage) (started : Bool) (r : Run σ) :
    Prop where
  once : r.once = started
  status : r.event.responseStatus.isSome = started
  stages : r.stages = l ++ kept omitStages (startedStages sink started)

variable {d} {sink : Bool} {omitStages l : List Stage} {started : Bool} {r : Run σ}

/-- Before the response has been started nothing is added to the stages. -/
theorem Serving.stages_eq (h : Serving sink omitStages l false r) : r.stages = l := by
  simpa [startedStages] using h.stages

/-- The first code starts the response, and later ones do nothing. -/
theorem Serving.processCode (h : Serving sink omitStages l started r) (code : ℤ) :
    Serving sink omitStages l true (d.processCode sink omitStages code r) := by
  cases started with
  -- The `once` is done, and the call reports nothing.
  | true => rwa [Auditor.processCode, if_pos h.once]
  | false =>
    have hl : ({ r with once := true } : Run σ).stages = l := h.stages_eq
    rw [Auditor.processCode, if_neg (by simp [h.once])]
    cases sink with
    | true =>
      refine ⟨?_, ?_, ?_⟩
      · simp [once_processAuditEvent]
      · simp [event_processAuditEvent]
      · simp [stages_processAuditEvent, startedStages, hl]
    | false => exact ⟨rfl, rfl, by simp [startedStages, hl]⟩

/-- A call starts the response, unless it is one of `Flush`. -/
theorem Serving.perform (h : Serving sink omitStages l started r) (c : Call) :
    Serving sink omitStages l (started || c.starts) (d.perform sink omitStages r (.call c)) := by
  rw [Auditor.perform]
  cases c with
  | write => simpa [Call.starts, serveCall] using h.processCode 200
  | writeHeader code => simpa [Call.starts, serveCall] using h.processCode code
  | flush => simpa [Call.starts, serveCall] using h
  | hijack => simpa [Call.starts, serveCall] using h.processCode 101

theorem Serving.foldl_perform (h : Serving sink omitStages l started r) (calls : List Call) :
    Serving sink omitStages l (started || calls.any Call.starts)
      ((calls.map Action.call).foldl (d.perform sink omitStages) r) := by
  induction calls generalizing started r with
  | nil => simpa using h
  | cons c calls ih => simpa [Bool.or_assoc] using ih (h.perform c)

variable (d)

/-- The stages after the handler has ended: the start of the response is made up
    when the deferred function finds that there was none. -/
theorem stages_complete (h : Serving sink omitStages l started r) (exit : Exit R) :
    (d.complete sink omitStages r exit).1.stages =
      l ++ kept omitStages (match exit.recover with
        | some _ => startedStages sink started ++ [.panic]
        | none => startedStages sink true ++ [.responseComplete]) := by
  rw [complete]
  cases exit.recover with
  | some value => simp [kept_append, h.stages]
  | none =>
    have hnone : r.event.responseStatus.isNone = !started := by rw [← h.status]; simp
    simp only [hnone, kept_append, stages_enter, Run.stages_mapEvent, ← List.append_assoc]
    congr 1
    cases started with
    | true => exact h.stages
    | false => cases sink <;> simp [startedStages, h.stages_eq]

/-! ## The event of a complete response -/

/-- A call on the response writer processes a code, or does nothing. -/
theorem serveCall_induction {P : Run σ → Prop} {r : Run σ} (h : P r)
    (hcode : ∀ code, P (d.processCode sink omitStages code r)) (c : Call) :
    P (d.serveCall sink omitStages c r) := by
  cases c with
  | write => exact hcode 200
  | writeHeader code => exact hcode code
  | flush => exact h
  | hijack => exact hcode 101

/-- The sink was given no event of a complete response yet. -/
def Incomplete (r : Run σ) : Prop := ∀ ev ∈ r.sunk, ev.stage ≠ .responseComplete

theorem mem_sunk_processAuditEvent {r : Run σ} {ev : Audit.Event}
    (h : ev ∈ (d.processAuditEvent omitStages r).2.sunk) : ev ∈ r.sunk ∨ ev = r.event := by
  rw [processAuditEvent] at h
  split_ifs at h
  · exact .inl h
  · simpa using h

theorem Incomplete.processAuditEvent {r : Run σ} (h : Incomplete r)
    (hstage : r.event.stage ≠ .responseComplete) :
    Incomplete (d.processAuditEvent omitStages r).2 := by
  intro ev hev
  rcases d.mem_sunk_processAuditEvent hev with hev | rfl
  · exact h ev hev
  · exact hstage

theorem Incomplete.mapEvent {r : Run σ} (h : Incomplete r) (f : Audit.Event → Audit.Event) :
    Incomplete (r.mapEvent f) := h

theorem Incomplete.enter {r : Run σ} (h : Incomplete r) {stage : Stage}
    (hstage : stage ≠ .responseComplete) : Incomplete (d.enter omitStages stage r).2 :=
  Incomplete.processAuditEvent d (h.mapEvent _) hstage

theorem Incomplete.processCode {r : Run σ} (h : Incomplete r) (code : ℤ) :
    Incomplete (d.processCode sink omitStages code r) := by
  rw [Auditor.processCode]
  split_ifs
  · exact h
  · exact Incomplete.processAuditEvent d h (by simp)
  · exact h

theorem Incomplete.perform {r : Run σ} (h : Incomplete r) (x : Action V) :
    Incomplete (d.perform sink omitStages r x) := by
  cases x with
  | call c => exact d.serveCall_induction h (fun code => h.processCode d code) c
  | _ => exact h

theorem Incomplete.foldl_perform {r : Run σ} (h : Incomplete r) (l : List (Action V)) :
    Incomplete (l.foldl (d.perform sink omitStages) r) := by
  induction l generalizing r with
  | nil => exact h
  | cons x l ih => exact ih (h.perform d x)

/-- The event of a complete response. -/
def completed (ev : Audit.Event) : Audit.Event :=
  { ev with
    stage := .responseComplete
    responseStatus := some (ev.responseStatus.getD fakedSuccessStatus) }

/-- At the end of a handler that did not panic, as far as `recover` tells, the
    event of a complete response is processed, whether or not the start of the
    response had to be made up before. -/
theorem complete_of_recover_none {exit : Exit R} (hexit : exit.recover = none) (r : Run σ) :
    ∃ r' : Run σ, (d.complete sink omitStages r exit).1 = (d.processAuditEvent omitStages r').2 ∧
      r'.event = completed r.event ∧ (Incomplete r → Incomplete r') := by
  rw [complete, hexit]
  dsimp only
  split_ifs with hfake
  · have hnone : r.event.responseStatus = none := by
      simpa using (Bool.and_eq_true_iff.1 hfake).1
    refine ⟨_, rfl, ?_, fun h => ?_⟩
    · simp [completed, hnone]
    · exact Incomplete.enter d (r := r.mapEvent _) h (by simp)
  · exact ⟨_, rfl, rfl, id⟩

/-- What the deferred function gives the sink for a complete response. -/
theorem Incomplete.eq_completed {r : Run σ} (h : Incomplete r) {exit : Exit R}
    {ev : Audit.Event} (hev : ev ∈ (d.complete sink omitStages r exit).1.sunk)
    (hstage : ev.stage = .responseComplete) : ev = completed r.event := by
  cases hexit : exit.recover with
  | some value =>
    rw [complete, hexit] at hev
    exact absurd hstage ((h.mapEvent _).enter d (by simp) ev hev)
  | none =>
    obtain ⟨r', heq, hevent, hinc⟩ := d.complete_of_recover_none hexit r
    rw [heq] at hev
    rcases d.mem_sunk_processAuditEvent hev with hev | rfl
    · exact absurd hstage (hinc h ev hev)
    · exact hevent

/-- It does so unless the stage is left out. -/
theorem Incomplete.mem_sunk_complete_iff {r : Run σ} (h : Incomplete r) {exit : Exit R}
    (hexit : exit.recover = none) (hkept : .responseComplete ∉ omitStages) (ev : Audit.Event) :
    (ev ∈ (d.complete sink omitStages r exit).1.sunk ∧ ev.stage = .responseComplete) ↔
      ev = completed r.event := by
  refine ⟨fun ⟨hev, hstage⟩ => h.eq_completed d hev hstage, ?_⟩
  rintro rfl
  obtain ⟨r', heq, hevent, -⟩ := d.complete_of_recover_none hexit r
  have hstage : r'.event.stage ∉ omitStages := by rwa [hevent]
  rw [heq, Auditor.processAuditEvent, if_neg hstage, ← hevent]
  exact ⟨List.mem_append_right _ (List.mem_singleton_self _), by rw [hevent]; rfl⟩

/-! ## The protocol -/

/-- The handler returned. -/
def Exit.isReturned : Exit R → Bool
  | .returned => true
  | .panicked _ => false

/-- The last stage of a request. -/
def Exit.stage : Exit R → Stage
  | .returned => .responseComplete
  | .panicked _ => .panic

/-- The stages of a request: received, started if it is long running and there was
    anything to start with or the handler returned, and the end of the handler. -/
def protocol (longRunning : Bool) (calls : List Call) (exit : Exit R) : List Stage :=
  .requestReceived ::
    (startedStages longRunning (calls.any Call.starts || exit.isReturned) ++ [exit.stage])

theorem nodup_protocol (longRunning : Bool) (calls : List Call) (exit : Exit R) :
    (protocol longRunning calls exit).Nodup := by
  rw [protocol, startedStages]
  cases exit <;> split_ifs <;> simp [Exit.stage]

/-- The sink is given the event of a request that was received, and refuses it. -/
def Refuses (omitStages : List Stage) (ev : Audit.Event) (s : σ) : Prop :=
  .requestReceived ∉ omitStages ∧
    (d.processEvents { ev with stage := .requestReceived } s).1 = false

/-- A request with the event `ev` is handled by the protocol: if the sink refuses
    the event, the handler is not called; otherwise the sink is given the stages of
    the protocol, each at most once, and the filter ends as the handler does. -/
def Followed (omitStages : List Stage) (ev : Audit.Event) (calls : List Call) (exit : Exit R)
    (req : HttpRequest) (s : σ) : Prop :=
  let out := d.withAudit { actions := calls.map .call, exit } req s
  (d.Refuses omitStages ev s → out.called = false ∧ out.stages = [.requestReceived]) ∧
    (¬ d.Refuses omitStages ev s → out.called = true ∧
      out.stages = kept omitStages (protocol (d.longRunning req) calls exit) ∧
      out.stages.Nodup ∧ out.exit = exit)

/-- Only an event that is not left out can be refused. -/
theorem fst_enter_eq_false {ev : Audit.Event} {s : σ} :
    (d.enter omitStages .requestReceived { event := ev, state := s }).1 = false ↔
      d.Refuses omitStages ev s := by
  rw [enter, processAuditEvent, Refuses]
  split_ifs with h <;> simp_all [Run.mapEvent]

variable {req : HttpRequest} {ev : Audit.Event} {s : σ}

/-- A refused request goes no further. -/
theorem withAudit_of_refuses (h : d.createAuditEvent req = .ok (some (ev, omitStages)))
    (hrefuses : d.Refuses omitStages ev s) (handler : Behaviour V R) :
    (d.withAudit handler req s).called = false ∧
      (d.withAudit handler req s).stages = [.requestReceived] := by
  have henter := d.fst_enter_eq_false.2 hrefuses
  have hstages := d.stages_enter omitStages .requestReceived { event := ev, state := s }
  obtain ⟨r, hr⟩ : ∃ r, d.enter omitStages .requestReceived { event := ev, state := s } =
      (false, r) := ⟨_, Prod.ext henter rfl⟩
  rw [hr] at hstages
  rw [withAudit, h]
  simp only [hr]
  refine ⟨trivial, hstages.trans ?_⟩
  simp [Run.stages, kept, hrefuses.1]

/-- A request that is not refused is handled, after the sink was given its event. -/
theorem withAudit_of_not_refuses (h : d.createAuditEvent req = .ok (some (ev, omitStages)))
    (hrefuses : ¬ d.Refuses omitStages ev s) (handler : Behaviour V R) :
    let r := (d.enter omitStages .requestReceived { event := ev, state := s }).2
    let served := d.serve (d.longRunning req) omitStages handler r
    d.withAudit handler req s =
      { called := true, sunk := served.1.sunk, exit := served.2, state := served.1.state } := by
  have henter : (d.enter omitStages .requestReceived { event := ev, state := s }).1 = true := by
    rw [← Bool.not_eq_false]
    exact mt d.fst_enter_eq_false.1 hrefuses
  rw [withAudit, h]
  dsimp only
  split
  case h_1 heq => rw [heq] at henter; cases henter
  case h_2 r heq => rw [heq]

/-- The event as it is when the handler is called. -/
theorem serving_received (h : d.createAuditEvent req = .ok (some (ev, omitStages))) :
    Serving sink omitStages (kept omitStages [.requestReceived]) false
      (d.enter omitStages .requestReceived { event := ev, state := s }).2 := by
  obtain ⟨a, level, -, -, -, rfl⟩ := d.createAuditEvent_eq_some h
  refine ⟨by simp, ?_, ?_⟩
  · simp [Audit.responseStatus_newEventFromRequest]
  · rw [stages_enter]
    simp [startedStages, Run.stages]

/-- The stages the sink is given for a handler that calls the response writer. -/
theorem stages_withAudit (h : d.createAuditEvent req = .ok (some (ev, omitStages)))
    (hrefuses : ¬ d.Refuses omitStages ev s) (calls : List Call) (exit : Exit R) :
    (d.withAudit { actions := calls.map .call, exit } req s).stages =
      kept omitStages (.requestReceived :: match exit.recover with
        | some _ => startedStages (d.longRunning req) (calls.any Call.starts) ++ [.panic]
        | none => startedStages (d.longRunning req) true ++ [.responseComplete]) := by
  rw [d.withAudit_of_not_refuses h hrefuses]
  have hserving : Serving (d.longRunning req) omitStages _ _ _ :=
    (d.serving_received h (s := s)).foldl_perform (d := d) calls
  have hstages := d.stages_complete hserving exit
  rw [Bool.false_or, ← kept_append] at hstages
  exact hstages

theorem exit_complete (r : Run σ) (exit : Exit R) :
    (d.complete sink omitStages r exit).2 = exit ↔ exit ≠ .panicked none := by
  rw [complete]
  rcases exit with _ | ⟨_ | value⟩ <;> simp [Exit.recover]

/-- The filter follows the protocol, short of panics with nil: these it takes for
    the handler having returned, and does not let them pass. -/
theorem followed_iff (h : d.createAuditEvent req = .ok (some (ev, omitStages)))
    (calls : List Call) (exit : Exit R) :
    d.Followed omitStages ev calls exit req s ↔
      d.Refuses omitStages ev s ∨ exit ≠ .panicked none := by
  by_cases hrefuses : d.Refuses omitStages ev s
  · simp only [Followed, hrefuses, not_true_eq_false, false_implies, true_implies, and_true,
      true_or, iff_true]
    exact d.withAudit_of_refuses h hrefuses _
  simp only [Followed, hrefuses, false_implies, true_and, not_false_eq_true, true_implies,
    false_or]
  have hexit : (d.withAudit { actions := calls.map .call, exit } req s).exit = exit ↔
      exit ≠ .panicked none := by
    rw [d.withAudit_of_not_refuses h hrefuses]
    exact d.exit_complete _ exit
  refine ⟨fun hfollowed => hexit.1 hfollowed.2.2.2, fun hne => ?_⟩
  -- For any other end, `recover` tells a panic from a return.
  have hstages : (d.withAudit { actions := calls.map .call, exit } req s).stages =
      kept omitStages (protocol (d.longRunning req) calls exit) := by
    rw [d.stages_withAudit h hrefuses, protocol]
    rcases exit with _ | ⟨_ | value⟩
    · simp [Exit.recover, Exit.isReturned, Exit.stage]
    · exact absurd rfl hne
    · simp [Exit.recover, Exit.isReturned, Exit.stage]
  refine ⟨?_, hstages, ?_, hexit.2 hne⟩
  · rw [d.withAudit_of_not_refuses h hrefuses]
  · rw [hstages]
    exact (nodup_protocol ..).filter _

/-- An auditor that records everything, and takes every request to be long running. -/
def recordAll : Auditor Unit Unit String where
  levelAndStages _ := (.metadata, [])
  processEvents _ s := (true, s)
  longRunningCheck := some fun _ => true
  requestURI req := req.path
  encoding := { marshal := fun _ => .ok [], asStatus := fun _ => none }
  format := id

/-- A request for the logs of a pod. -/
def logsRequest : HttpRequest where
  method := "GET"
  path := "/api/v1/namespaces/default/pods/web/log"
  ctx :=
    { user := some { name := "alice" }
      requestInfo := some
        { isResourceRequest := true, verb := "get", ns := "default", resource := "pods"
          subresource := "log", name := "web" } }

/-- The event of that request. -/
def logsEvent : Audit.Event where
  level := .metadata
  requestURI := "/api/v1/namespaces/default/pods/web/log"
  verb := "get"
  user := { name := "alice" }
  objectRef := some { ns := "default", resource := "pods", subresource := "log", name := "web" }

theorem createAuditEvent_logs :
    recordAll.createAuditEvent logsRequest = .ok (some (logsEvent, [])) := rfl

/-- A handler that writes a part of the logs, and then panics with a value. -/
theorem recordAll_followed :
    recordAll.createAuditEvent logsRequest = .ok (some (logsEvent, [])) ∧
      recordAll.Followed [] logsEvent [.flush, .writeHeader 200, .write]
        (.panicked (some "broken pipe")) logsRequest () :=
  ⟨createAuditEvent_logs,
    (recordAll.followed_iff createAuditEvent_logs _ _).2 (.inr (by decide))⟩

/-- The same handler with nil in place of the value: the response is recorded as
    complete, and the panic goes no further. -/
theorem recordAll_not_followed :
    recordAll.createAuditEvent logsRequest = .ok (some (logsEvent, [])) ∧
      (recordAll.withAudit ⟨[.flush, .writeHeader 200, .write].map .call, .panicked none⟩
        logsRequest ()).stages = [.requestReceived, .responseStarted, .responseComplete] ∧
      (recordAll.withAudit ⟨[.flush, .writeHeader 200, .write].map .call, .panicked none⟩
        logsRequest ()).exit = .returned ∧
      ¬ recordAll.Followed [] logsEvent [.flush, .writeHeader 200, .write] (.panicked none)
        logsRequest () := by
  refine ⟨createAuditEvent_logs, by decide, by decide, fun hfollowed => ?_⟩
  have hexit := (hfollowed.2 fun hrefuses => absurd hrefuses.2 (by decide)).2.2.2
  exact absurd hexit (by decide)

/-! ## The filter of the handler chain -/

/-- The stages in a trace. -/
def traceStages (l : List Event) : List Stage :=
  l.filterMap fun
    | .audit stage => some stage
    | _ => none

@[simp] theorem traceStages_nil : traceStages [] = [] := rfl

@[simp] theorem traceStages_append (l l' : List Event) :
    traceStages (l ++ l') = traceStages l ++ traceStages l' := List.filterMap_append

/-- The filter of the handler chain has the policy, the check for long running
    requests and a sink that accepts what the one of `d` does. -/
structure Coarsens (c : Auditing σ) : Prop where
  levelAndStages : c.levelAndStages = d.levelAndStages
  longRunning : c.longRunning = d.longRunning
  processEvents : ∀ ev s, (c.processEvents ev.stage s).1 = (d.processEvents ev s).1

/-- What is left of a behaviour at the level of the handler chain. -/
structure Mirrors (calls : List Call) (exit : Exit R) (served : Served σ) : Prop where
  stages : traceStages served.trace = []
  writes : served.trace.any Auditing.writes = calls.any Call.starts
  panicked : served.panicked = exit.recover.isSome

variable {c : Auditing σ} {calls : List Call} {exit : Exit R} {served : Served σ}

theorem traceStages_processAuditEvent (c : Auditing σ) (omitStages : List Stage)
    (stage : Stage) (s : σ) :
    traceStages (c.processAuditEvent omitStages stage s).1 = kept omitStages [stage] := by
  rw [Auditing.processAuditEvent, kept]
  split_ifs with h <;> simp [traceStages, h]

theorem traceStages_intercept (started : List Event) (l : List Event) (h : traceStages l = []) :
    traceStages (Auditing.intercept started l) =
      if l.any Auditing.writes then traceStages started else [] := by
  induction l with
  | nil => rfl
  | cons x l ih =>
    have hx : traceStages [x] = [] ∧ traceStages l = [] :=
      List.append_eq_nil_iff.1 ((traceStages_append [x] l).symm.trans h)
    rw [Auditing.intercept]
    cases hw : Auditing.writes x with
    | true => simp [hw, h]
    | false => simpa [hw, hx.1, ih hx.2] using traceStages_append [x] (Auditing.intercept started l)

theorem traceStages_serveIntercepted (c : Auditing σ) (h : Mirrors calls exit served) :
    traceStages (c.serveIntercepted sink omitStages served).trace =
      kept omitStages (startedStages sink (calls.any Call.starts)) := by
  rw [Auditing.serveIntercepted, startedStages, ← h.writes]
  split_ifs with hsink
  · have hwrites := (Bool.and_eq_true_iff.1 hsink).2
    simp [traceStages_intercept _ _ h.stages, hwrites, traceStages_processAuditEvent]
  · exact h.stages

theorem any_writes_intercept (started l : List Event) :
    (Auditing.intercept started l).any Auditing.writes = l.any Auditing.writes := by
  induction l with
  | nil => rfl
  | cons x l ih =>
    rw [Auditing.intercept]
    cases hw : Auditing.writes x <;> simp [hw, ih]

/-- The deferred function finds the writes and the end of the handler as they were. -/
theorem traceStages_complete (c : Auditing σ) (h : Mirrors calls exit served) :
    traceStages (c.complete sink omitStages (c.serveIntercepted sink omitStages served)).trace =
      kept omitStages (match exit.recover with
        | some _ => startedStages sink (calls.any Call.starts) ++ [.panic]
        | none => startedStages sink true ++ [.responseComplete]) := by
  have hpanicked : (c.serveIntercepted sink omitStages served).panicked = served.panicked := by
    rw [Auditing.serveIntercepted]
    split_ifs <;> rfl
  have hwrites : (c.serveIntercepted sink omitStages served).trace.any Auditing.writes =
      calls.any Call.starts := by
    rw [Auditing.serveIntercepted, ← h.writes]
    split_ifs
    · exact any_writes_intercept ..
    · rfl
  have hstages : traceStages (c.serveIntercepted sink omitStages served).trace = _ :=
    traceStages_serveIntercepted c h
  rw [Auditing.complete, hpanicked, h.panicked]
  cases exit.recover with
  | some value => simp [hstages, traceStages_processAuditEvent, kept_append]
  | none =>
    simp only [Option.isSome_none, Bool.false_eq_true, if_false, traceStages_append, hstages,
      traceStages_processAuditEvent, kept_append, hwrites]
    congr 1
    -- Where the response was not started, the deferred function makes up its start.
    cases sink <;> cases calls.any Call.starts <;>
      simp [startedStages, traceStages_processAuditEvent]

theorem Coarsens.createAuditEvent (hc : d.Coarsens c) (req : HttpRequest) :
    c.createAuditEvent req = (d.createAuditEvent req).map (Option.map Prod.snd) := by
  rw [Auditing.createAuditEvent, Auditor.createAuditEvent, hc.levelAndStages]
  cases getAuthorizerAttributes req.ctx with
  | error err => rfl
  | ok a =>
    obtain ⟨level, omitStages, h⟩ : ∃ l o, d.levelAndStages a = (l, o) := ⟨_, _, rfl⟩
    simp only [h]
    cases level <;> rfl

theorem Coarsens.fst_processAuditEvent (hc : d.Coarsens c) :
    (c.processAuditEvent omitStages .requestReceived s).2.1 =
      (d.enter omitStages .requestReceived { event := ev, state := s }).1 := by
  have hprocess := hc.processEvents { ev with stage := .requestReceived } s
  rw [Auditing.processAuditEvent, enter, Auditor.processAuditEvent, Run.event_mapEvent]
  split_ifs with h
  · rfl
  · exact hprocess

/-- The filter of the handler chain gives the sink the same stages. -/
theorem stages_eq_coarse (hc : d.Coarsens c) {handler : Handler σ}
    (hm : ∀ s, Mirrors calls exit (handler req s)) :
    traceStages (Apiserver.withAudit (some c) handler req s).trace =
      (d.withAudit { actions := calls.map .call, exit } req s).stages := by
  have hcreate := hc.createAuditEvent d req
  rw [Apiserver.withAudit]
  dsimp only
  rcases hd : d.createAuditEvent req with err | _ | ⟨ev, omitStages⟩
  · simp [hcreate, hd, Except.map, traceStages, withAudit, Outcome.stages]
  · simpa [hcreate, hd, Except.map, withAudit, Outcome.stages] using (hm s).stages
  have hfirst : (c.processAuditEvent omitStages .requestReceived s).2.1 =
      (d.enter omitStages .requestReceived { event := ev, state := s }).1 :=
    hc.fst_processAuditEvent d
  have hreceived := traceStages_processAuditEvent c omitStages .requestReceived s
  simp only [hcreate, hd, Except.map, Option.map_some]
  by_cases hrefuses : d.Refuses omitStages ev s
  · rw [(d.withAudit_of_refuses hd hrefuses _).2]
    rw [d.fst_enter_eq_false.2 hrefuses] at hfirst
    split
    case h_1 events s' heq =>
      rw [heq] at hreceived
      simp only [traceStages_append, hreceived, kept]
      simp [hrefuses.1, traceStages]
    case h_2 heq => rw [heq] at hfirst; cases hfirst
  · rw [d.stages_withAudit hd hrefuses]
    split
    case h_1 heq =>
      rw [heq] at hfirst
      exact absurd (d.fst_enter_eq_false.1 hfirst.symm) hrefuses
    case h_2 events s' heq =>
      rw [heq] at hreceived
      rw [Served.after_trace, traceStages_append, hreceived, hc.longRunning,
        traceStages_complete c (hm s')]
      exact (kept_append omitStages [.requestReceived] _).symm

end Auditor

end Apiserver
