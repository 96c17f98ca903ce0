import Apiserver.Filters.AuditStages
import Apiserver.Rest.RouteHandle

/-!
# The record of a request to a route handle

A route handle logs the object of every request that it does not refuse, a nil
one if its function takes no body (`Handler` in `pkg/rest/routehandle.go`). That
completes the reference to an object in the audit event, or makes one
(`LogRequestObject` in `pkg/audit/request.go`), and the name it fills in is that
of a Go type: `Value`, whatever the object is.

* `Auditor.subject_of_complete`: the subject of the event the sink is given when
  the response is complete is what the actions of the handler made of it;
* `subject_behaviour`: for a route handle, that is the subject of a new event,
  completed if the handle read the request;
* `recorded_iff`: so the record is that of the request if the handle refused it,
  or if it was for a resource with a name, or for one where the policy does not
  tell the name `Value` from none.
-/

namespace Apiserver

open Audit (Stage Level Subject subjectOf newAttributes)

/-! ## The subject of an event in the audit filter -/

namespace Auditor

variable {σ V R : Type}

/-- The action does not log the object of the request. -/
def Action.isForeign : Action V → Bool
  | .logRequestObject _ _ => false
  | _ => true

variable (d : Auditor σ V R) {sink : Bool} {omitStages : List Stage}

/-- Moving an event through the stages does not touch its subject. -/
theorem subject_processCode (code : ℤ) (r : Run σ) :
    (d.processCode sink omitStages code r).event.subject = r.event.subject := by
  rw [processCode]
  split_ifs
  · rfl
  · rw [event_processAuditEvent]
    rfl
  · rfl

/-- What handlers do does not change what is audited. -/
theorem subject_perform {x : Action V} (hx : x.isForeign = true) (r : Run σ) :
    (d.perform sink omitStages r x).event.subject = r.event.subject := by
  cases x with
  | call c =>
    exact d.serveCall_induction (P := fun r' => r'.event.subject = r.event.subject) rfl
      (fun code => d.subject_processCode code r) c
  | logRequestObject obj subresource => cases hx
  | logResponseObject obj => exact Audit.Event.subject_logResponseObject ..
  | logAnnotationEntry key value => exact Audit.Event.subject_logAnnotationEntry ..
  | logImpersonatedUser user => exact Audit.Event.subject_logImpersonatedUser ..

theorem subject_foldl_perform {l : List (Action V)} (hl : ∀ x ∈ l, x.isForeign = true)
    (r : Run σ) : (l.foldl (d.perform sink omitStages) r).event.subject = r.event.subject := by
  induction l generalizing r with
  | nil => rfl
  | cons x l ih =>
    rw [List.foldl_cons, ih fun y hy => hl y (List.mem_cons_of_mem _ hy),
      d.subject_perform (hl x List.mem_cons_self)]

/-- The event of a complete response has the subject the handler left it with. -/
theorem subject_of_complete {req : HttpRequest} {handler : Behaviour V R} {s : σ}
    {ev : Audit.Event} (hev : ev ∈ (d.withAudit handler req s).sunk)
    (hstage : ev.stage = .responseComplete) :
    ∃ ev₀ omitStages, d.createAuditEvent req = .ok (some (ev₀, omitStages)) ∧
      ∃ r : Run σ, r.event.subject = ev₀.subject ∧
        ev.subject =
          (handler.actions.foldl (d.perform (d.longRunning req) omitStages) r).event.subject := by
  rw [withAudit] at hev
  split at hev
  · cases hev
  · cases hev
  case h_3 ev₀ omitStages hcreate =>
    refine ⟨ev₀, omitStages, hcreate, ?_⟩
    have hreceived : Incomplete
        (d.enter omitStages .requestReceived { event := ev₀, state := s }).2 :=
      Incomplete.enter d (fun _ h => absurd h List.not_mem_nil) (by simp)
    have hevent := d.event_enter omitStages .requestReceived { event := ev₀, state := s }
    split at hev
    case h_1 r heq =>
      rw [heq] at hreceived
      exact absurd hstage (hreceived ev hev)
    case h_2 r heq =>
      rw [heq] at hreceived hevent
      refine ⟨r, by rw [hevent]; rfl, ?_⟩
      rw [(hreceived.foldl_perform d _).eq_completed d hev hstage]
      rfl

end Auditor

/-! ## Route handles in the filter -/

namespace Rest

open Auditor (Action Behaviour)

variable {V : Type}

/-- What goes on around a route handle, none of which logs the object of the
    request: in the filters before and after it, and in the calls it makes. -/
structure Surroundings (V : Type) where
  before : List (Action V)
  act : Event V → List (Action V)
  after : List (Action V)
  isForeign_before : ∀ x ∈ before, x.isForeign = true
  isForeign_act : ∀ y, ∀ x ∈ act y, x.isForeign = true
  isForeign_after : ∀ x ∈ after, x.isForeign = true

namespace Surroundings

variable (m : Surroundings V)

/-- The actions behind what a handle does. -/
def actions : Event V → List (Action V)
  | .logRequestObject body => [.logRequestObject body ""]
  | y => m.act y

/-- A route handle in its surroundings. -/
def behaviour {R : Type} (e : Env V) (p : RouteHandle V) (req : RestfulRequest) :
    Behaviour V R where
  actions := m.before ++ (p.handler e req).flatMap m.actions ++ m.after
  exit := .returned

theorem isForeign_actions {y : Event V} (hy : ∀ body, y ≠ .logRequestObject body) :
    ∀ x ∈ m.actions y, x.isForeign = true := by
  cases y with
  | logRequestObject body => exact absurd rfl (hy body)
  | call args => exact m.isForeign_act _
  | respWrite data err => exact m.isForeign_act _
  | setError err => exact m.isForeign_act _

end Surroundings

/-- The response to what the function returned logs nothing. -/
theorem ne_logRequestObject_of_mem_respond (e : Env V) {l : List V} {y : Event V}
    (hy : y ∈ respond e l) (body : Option V) : y ≠ .logRequestObject body := by
  rintro rfl
  rw [respond.eq_def] at hy
  split at hy <;> simp at hy

/-- The handle read the request, and calls its function. -/
def RouteHandle.Proceeds (e : Env V) (p : RouteHandle V) (req : RestfulRequest) : Prop :=
  (readEntity e req (p.param.map e.new) (p.body.map e.new)).2 = none

instance (e : Env V) (p : RouteHandle V) (req : RestfulRequest) : Decidable (p.Proceeds e req) :=
  decidable_of_iff (_ = true) Option.isNone_iff_eq_none

/-- A handle logs the object of a request once, before anything else, if it read
    the request, and never otherwise. -/
theorem handler_logs (e : Env V) (p : RouteHandle V) (req : RestfulRequest) :
    ∃ body l, (∀ y ∈ l, ∀ b, y ≠ Event.logRequestObject b) ∧
      p.handler e req = if p.Proceeds e req then .logRequestObject body :: l else l := by
  rcases hread : readEntity e req (p.param.map e.new) (p.body.map e.new) with ⟨entity, _ | err⟩
  · have hproceeds : p.Proceeds e req := congrArg Prod.snd hread
    refine ⟨entity.2, .call (p.ins.map (RequestType.select entity)) ::
      respond e (p.handle.call req (p.ins.map (RequestType.select entity))), ?_, ?_⟩
    · intro y hy body
      rcases List.mem_cons.1 hy with rfl | hy
      · nofun
      · exact ne_logRequestObject_of_mem_respond e hy body
    · rw [if_pos hproceeds, RouteHandle.handler, hread]
  · have hproceeds : ¬ p.Proceeds e req := by
      rw [RouteHandle.Proceeds, hread]
      exact Option.some_ne_none err
    refine ⟨none, [.respWrite none (some err)], by simp, ?_⟩
    rw [if_neg hproceeds, RouteHandle.handler, hread]

section Record

variable {σ R : Type} (d : Auditor σ V R) {sink : Bool} {omitStages : List Stage}
  (m : Surroundings V) (e : Env V) (p : RouteHandle V)

/-- What a route handle makes of the subject of an event. -/
theorem subject_behaviour (req : RestfulRequest) {r : Auditor.Run σ}
    (hlevel : r.event.level ≠ .none) :
    ∃ body : Option V,
      ((m.behaviour (R := R) e p req).actions.foldl (d.perform sink omitStages) r).event.subject =
        if p.Proceeds e req then
          { r.event.subject with
            objectRef := some (Audit.Event.completeRef r.event.objectRef body "") }
        else r.event.subject := by
  obtain ⟨body, l, hl, hhandler⟩ := handler_logs e p req
  -- What the handle does after it has logged the object is foreign.
  have hforeign : ∀ x ∈ l.flatMap m.actions, x.isForeign = true := by
    intro x hx
    obtain ⟨y, hy, hx⟩ := List.mem_flatMap.1 hx
    exact m.isForeign_actions (hl y hy) x hx
  refine ⟨body, ?_⟩
  rw [Surroundings.behaviour, List.foldl_append, List.foldl_append,
    d.subject_foldl_perform m.isForeign_after, hhandler]
  have hbefore : (m.before.foldl (d.perform sink omitStages) r).event.subject = _ :=
    d.subject_foldl_perform m.isForeign_before r
  generalize m.before.foldl (d.perform sink omitStages) r = r₁ at hbefore
  have hlevel₁ : r₁.event.level ≠ .none := (congrArg Subject.level hbefore).trans_ne hlevel
  have href : r₁.event.objectRef = r.event.objectRef := congrArg Subject.objectRef hbefore
  split_ifs
  · rw [List.flatMap_cons, List.foldl_append, d.subject_foldl_perform hforeign]
    refine (Audit.Event.subject_logRequestObject d.encoding r₁.event body "" hlevel₁).trans ?_
    rw [hbefore, href]
  · rw [d.subject_foldl_perform hforeign, hbefore]

/-- The subject of the event of a complete response, for a route handle. -/
theorem subject_of_route {a : Attributes} {req : HttpRequest} {rreq : RestfulRequest}
    {s : σ} {ev : Audit.Event} (ha : getAuthorizerAttributes req.ctx = .ok a)
    (hev : ev ∈ (d.withAudit (m.behaviour e p rreq) req s).sunk)
    (hstage : ev.stage = .responseComplete) :
    ∃ (body : Option V) (level : Level), ev.subject =
      if p.Proceeds e rreq then
        { subjectOf (d.requestURI req) level a with
          objectRef := some (Audit.Event.completeRef (Audit.objectRefOf a) body "") }
      else subjectOf (d.requestURI req) level a := by
  obtain ⟨ev₀, omitStages, hcreate, r, hr, hsubject⟩ := d.subject_of_complete hev hstage
  obtain ⟨a', level, ha', -, hlevel, rfl⟩ := d.createAuditEvent_eq_some hcreate
  obtain rfl : a = a' := Except.ok.inj (ha.symm.trans ha')
  rw [Audit.subject_newEventFromRequest] at hr
  have hlevel' : r.event.level ≠ .none := (congrArg Subject.level hr).trans_ne hlevel
  have href : r.event.objectRef = Audit.objectRefOf a := congrArg Subject.objectRef hr
  obtain ⟨body, hbody⟩ := subject_behaviour d m e p rreq hlevel'
  rw [hr, href] at hbody
  exact ⟨body, level, hsubject.trans hbody⟩

/-- The name in a completed reference. -/
def nameOrType (name : String) : String := if name.isEmpty then "Value" else name

theorem nameOrType_of_ne {name : String} (h : name ≠ "") : nameOrType name = name := by
  rw [nameOrType, if_neg (by simpa using h)]

/-- Completing the reference of a request for a resource names the object. -/
theorem completeRef_objectRefOf {a : Attributes} (ha : a.resourceRequest = true)
    (body : Option V) :
    some (Audit.Event.completeRef (Audit.objectRefOf a) body "") =
      Audit.objectRefOf { a with name := nameOrType a.name } := by
  simp only [Audit.Event.completeRef, Audit.objectRefOf, nameOrType, Audit.Event.typeName, ha,
    if_true, Option.getD_some, Option.some.injEq, Audit.ObjectReference.mk.injEq, true_and]
  split_ifs with h
  · exact (String.isEmpty_iff.1 h).symm
  · rfl

variable (policy : Audit.Policy) (parseRequestURI : String → Except Error String)

/-- The event is a record of a request with attributes `a`: it refers to an object
    if the request was for one, to that object, and the policy decides on the
    attributes read back from it as it does on those of the request. -/
structure Recorded (a : Attributes) (ev : Audit.Event) : Prop where
  isSome_objectRef : ev.objectRef.isSome = true ↔ a.resourceRequest = true
  objectRef : ∀ ref, ev.objectRef = some ref → ref.ns = a.ns ∧ ref.resource = a.resource ∧
    ref.subresource = a.subresource ∧ (a.name ≠ "" → ref.name = a.name)
  selects : ∃ b, newAttributes parseRequestURI ev = .ok b ∧
    policy.levelAndStages b = policy.levelAndStages a

variable {policy parseRequestURI}

/-- An event whose subject was made from the attributes of the request, under a
    name that is the one of the request if that has one. -/
theorem recorded_of_subject {a : Attributes} {ev : Audit.Event} {requestURI : String}
    {level : Level} {name : String} (huser : a.user.isSome = true)
    (hpath : parseRequestURI requestURI = .ok a.path) (hname : a.name ≠ "" → name = a.name)
    (hev : ev.subject = subjectOf requestURI level { a with name }) :
    Recorded policy parseRequestURI a ev ↔
      policy.levelAndStages { a with name } = policy.levelAndStages a := by
  obtain ⟨b, hb, halike⟩ := Audit.alike_newAttributes (a := { a with name }) huser hpath hev
  have hpolicy := policy.levelAndStages_congr halike
  have href : ev.objectRef = Audit.objectRefOf { a with name } := congrArg Subject.objectRef hev
  constructor
  · rintro ⟨-, -, b', hb', hselects⟩
    obtain rfl : b = b' := Except.ok.inj (hb.symm.trans hb')
    rw [← hpolicy, hselects]
  · intro hselects
    refine ⟨?_, ?_, b, hb, hpolicy.trans hselects⟩
    · rw [href, Audit.objectRefOf]
      cases ha : a.resourceRequest <;> simp
    · intro ref hsome
      rw [href, Audit.objectRefOf] at hsome
      split_ifs at hsome
      cases hsome
      exact ⟨rfl, rfl, rfl, hname⟩

/-- What is recorded of a request to a route handle, as seen by any policy, that
    of the auditor in particular. -/
theorem recorded_iff (policy : Audit.Policy) (m : Surroundings V) (req : HttpRequest)
    (rreq : RestfulRequest) {a : Attributes} {s : σ} {ev : Audit.Event}
    (ha : getAuthorizerAttributes req.ctx = .ok a) (huser : a.user.isSome = true)
    (hpath : parseRequestURI (d.requestURI req) = .ok a.path)
    (hev : ev ∈ (d.withAudit (m.behaviour e p rreq) req s).sunk)
    (hstage : ev.stage = .responseComplete) :
    Recorded policy parseRequestURI a ev ↔
      ¬ p.Proceeds e rreq ∨
        a.resourceRequest = true ∧ (a.name ≠ "" ∨
          policy.levelAndStages { a with name := "Value" } = policy.levelAndStages a) := by
  obtain ⟨body, level, hsubject⟩ := subject_of_route d m e p ha hev hstage
  by_cases hproceeds : p.Proceeds e rreq
  · rw [if_pos hproceeds] at hsubject
    cases hreq : a.resourceRequest with
    | false =>
      -- There is a reference now, where there should be none.
      have hsome : ev.objectRef.isSome = true := by
        rw [show ev.objectRef = some _ from congrArg Subject.objectRef hsubject]
        rfl
      simp only [hproceeds, not_true_eq_false, Bool.false_eq_true, false_and, or_self, iff_false]
      intro hrecorded
      rw [hrecorded.isSome_objectRef, hreq] at hsome
      cases hsome
    | true =>
      -- The event is one of the same request under a name that was filled in.
      rw [completeRef_objectRefOf hreq] at hsubject
      rw [recorded_of_subject huser hpath nameOrType_of_ne hsubject]
      simp only [hproceeds, not_true_eq_false, false_or, true_and]
      by_cases hname : a.name = ""
      · simp [hname, nameOrType, hreq]
      · simp [hname, nameOrType_of_ne hname]
  · rw [if_neg hproceeds] at hsubject
    simp only [hproceeds, not_false_eq_true, true_or, iff_true]
    exact (recorded_of_subject huser hpath (fun _ => rfl) hsubject).2 rfl

end Record

/-! ## A handle without a body -/

/-- A policy that records requests to check the health of the server, and those
    for pods. -/
def examplePolicy : Audit.Policy where
  rules :=
    [{ level := .metadata, nonResourceURLs := ["/healthz"] },
      { level := .metadata, resources := [{ resources := ["pods"] }] }]

/-- An auditor with that policy. -/
def exampleAuditor : Auditor Unit String String where
  levelAndStages := examplePolicy.levelAndStages
  processEvents _ s := (true, s)
  requestURI req := req.path
  encoding := { marshal := fun _ => .ok [], asStatus := fun _ => none }
  format := id

/-- The function of a handle that takes neither a param nor a body. -/
def pingHandle : RouteHandle String where
  handle :=
    { type := .func "func(http.ResponseWriter, *http.Request) error"
        [.other "http.ResponseWriter", .ptr "*http.Request" (.struct "http.Request")]
        [.other "error"]
      call := fun _ _ => [""] }

/-- Nothing happens around the handle, and the response is written at once. -/
def quiet : Surroundings String where
  before := []
  act
    | .respWrite _ _ => [.call .write]
    | _ => []
  after := []
  isForeign_before := by simp
  isForeign_act y := by cases y <;> simp [Action.isForeign]
  isForeign_after := by simp

def podRequest : HttpRequest where
  path := "/api/v1/pods/web"
  ctx :=
    { user := some { name := "alice" }
      requestInfo := some
        { isResourceRequest := true, path := "/api/v1/pods/web", verb := "get"
          resource := "pods", name := "web" } }

def healthzRequest : HttpRequest where
  path := "/healthz"
  ctx :=
    { user := some { name := "alice" }
      requestInfo := some { path := "/healthz", verb := "get" } }

/-- The attributes of a request. -/
def attributesOf (req : HttpRequest) : Attributes :=
  (getAuthorizerAttributes req.ctx).toOption.getD {}

/-- The last event the sink is given for a request. -/
def recordOf (req : HttpRequest) : Audit.Event :=
  ((exampleAuditor.withAudit (quiet.behaviour exampleEnv pingHandle {}) req ()).sunk.getLast?).getD
    { level := .none }

theorem recordOf_pod_recorded :
    (recordOf podRequest).objectRef = some { resource := "pods", name := "web" } ∧
      Recorded examplePolicy .ok (attributesOf podRequest) (recordOf podRequest) := by
  refine ⟨rfl, ?_⟩
  have hname : (attributesOf podRequest).name ≠ "" := by decide
  exact (recorded_iff exampleAuditor exampleEnv pingHandle examplePolicy quiet podRequest {}
    (s := ()) rfl rfl rfl (List.mem_of_getLast? rfl) rfl).2 (.inr ⟨rfl, .inl hname⟩)

/-- The record of a request to check the health of the server refers to an object
    with the name `Value`. The policy, which wanted the request recorded, finds no
    rule for it. -/
theorem recordOf_healthz_not_recorded :
    (recordOf healthzRequest).objectRef = some { name := "Value" } ∧
      examplePolicy.levelAndStages (attributesOf healthzRequest) = (.metadata, []) ∧
      (∃ b, newAttributes .ok (recordOf healthzRequest) = .ok b ∧
        examplePolicy.levelAndStages b = (.none, [])) ∧
      ¬ Recorded examplePolicy .ok (attributesOf healthzRequest) (recordOf healthzRequest) := by
  refine ⟨rfl, by decide, ⟨_, rfl, by decide⟩, fun hrecorded => ?_⟩
  exact absurd (hrecorded.isSome_objectRef.1 rfl) (by decide)

end Rest

end Apiserver
