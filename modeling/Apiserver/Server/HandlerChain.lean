import Apiserver.Filters.Audit
import Apiserver.Filters.Authentication
import Apiserver.Filters.Impersonation

/-!
# The default handler chain

The server wraps the handler of its API in a chain of filters
(`DefaultBuildHandlerChain` in `pkg/server/config.go`). From the outside in, a
request passes

* `WithRequestInfo`, `WithAuthentication`, `WithAudit`, `WithImpersonation` and
  `WithAuthorization`, as they are modelled, and
* filters that have no part in the decisions, which stand for arbitrary
  transparent ones.

`chain_mediated` follows the decisions from the API handler outwards, one filter
at a time. So the API handler is entered only for a user that was authenticated
and authorized, or that such a user was allowed to impersonate
(`defaultBuildHandlerChain_mediates`).
-/

namespace Apiserver

variable {σ : Type}

/-- A filter with no part in the decisions about a request. -/
abbrev TransparentFilter (σ : Type) := { f : Filter σ // Transparent f }

/-- What the chain is built from. -/
structure ChainConfig (σ : Type) where
  authenticator : AuthenticatorM σ
  apiAudiences : List String
  keepAuthorizationHeader : Bool
  authorizer : AuthorizerM σ
  impersonation : ImpersonationEnv
  /-- The audit backend and policy, if there are both. -/
  auditing : Option (Auditing σ)
  /-- `NewRequestInfo` of the resolver. -/
  newRequestInfo : Go.Request → Parsed
  trackStarted : String → TransparentFilter σ
  trackCompleted : TransparentFilter σ
  withSessions : TransparentFilter σ
  withCORS : TransparentFilter σ
  withTimeoutForNonLongRunningRequests : TransparentFilter σ
  withRequestDeadline : TransparentFilter σ
  withWaitGroup : TransparentFilter σ
  withAuditAnnotations : TransparentFilter σ
  withWarningRecorder : TransparentFilter σ
  withCacheControl : TransparentFilter σ
  withHSTS : TransparentFilter σ
  withRequestReceivedTimestamp : TransparentFilter σ
  withHttpDump : TransparentFilter σ
  withPanicRecovery : TransparentFilter σ

/-- An API handler: it is entered, and writes a response or panics. -/
def apiHandler (body : HttpRequest → σ → List String × Bool × σ) : Handler σ := fun req s =>
  let (writes, panicked, s) := body req s
  { trace := .serve req :: writes.map .write, panicked, state := s }

variable (c : ChainConfig σ)

/-- The handler for requests that are not authenticated. -/
def failedHandler : Handler σ :=
  let failedHandler := unauthorized
  let failedHandler := withFailedAuthenticationAudit c.auditing failedHandler
  c.trackCompleted.1 failedHandler

/-- `DefaultBuildHandlerChain`. -/
def defaultBuildHandlerChain (apiHandler : Handler σ) : Handler σ :=
  let handler := c.trackCompleted.1 apiHandler
  let handler := withAuthorization (some c.authorizer) handler
  let handler := (c.trackStarted "authorization").1 handler
  let handler := c.trackCompleted.1 handler
  let handler := withImpersonation c.impersonation c.authorizer handler
  let handler := (c.trackStarted "impersonation").1 handler
  let handler := c.trackCompleted.1 handler
  let handler := withAudit c.auditing handler
  let handler := (c.trackStarted "audit").1 handler
  let handler := c.trackCompleted.1 handler
  let handler := withAuthentication (some c.authenticator) (failedHandler c) c.apiAudiences
    c.keepAuthorizationHeader handler
  let handler := (c.trackStarted "authentication").1 handler
  let handler := c.withSessions.1 handler
  let handler := c.withCORS.1 handler
  let handler := c.withTimeoutForNonLongRunningRequests.1 handler
  let handler := c.withRequestDeadline.1 handler
  let handler := c.withWaitGroup.1 handler
  let handler := withRequestInfo c.newRequestInfo handler
  let handler := c.withAuditAnnotations.1 handler
  let handler := c.withWarningRecorder.1 handler
  let handler := c.withCacheControl.1 handler
  let handler := c.withHSTS.1 handler
  let handler := c.withRequestReceivedTimestamp.1 handler
  let handler := c.withHttpDump.1 handler
  c.withPanicRecovery.1 handler

/-! ## What is decided, from the inside out -/

/-- The API handler, with the filters around it: it is entered, or not. -/
inductive Entered (req : HttpRequest) : List Event → Prop
  | nothing : Entered req []
  | served : Entered req [.serve req]

/-- From the authorization on: the authorizer is asked about the attributes of
    the request, and the API handler is entered if it allows them. -/
inductive Decided (req : HttpRequest) : List Event → Prop
  | nothing : Decided req []
  | asked {a : Attributes} {answer : Answer} (ha : getAuthorizerAttributes req.ctx = .ok a) :
    Decided req [.authorize a answer]
  | served {a : Attributes} {answer : Answer} (ha : getAuthorizerAttributes req.ctx = .ok a)
    (hallow : answer.decision = .allow) : Decided req [.authorize a answer, .serve req]

/-- From the impersonation on: the user stays, or some requests to act for
    another are refused, or all are allowed. -/
inductive Acted (req : HttpRequest) : List Event → Prop
  | self {l : List Event} (h : Decided req l) : Acted req l
  | refused {l : List Event} (h : ∀ x ∈ l, ∃ a answer, x = .authorize a answer) : Acted req l
  | acting {before l : List Event} {requestor newUser : UserInfo} {header : Go.Header}
    (hbefore : ∀ x ∈ before, ∃ a answer, x = .authorize a answer ∧ answer.decision = .allow)
    (huser : req.ctx.user = some requestor)
    (himp : Impersonates c.impersonation req.header before requestor newUser)
    (h : Decided { req with header, ctx := { req.ctx with user := some newUser } } l) :
    Acted req (before ++ l)

/-- From the authentication on: the authenticator is asked first, and the rest
    is for a user it accepted. -/
inductive Authenticated (req : HttpRequest) : List Event → Prop
  | nothing : Authenticated req []
  | failed {result : AuthnResult} (h : ∀ user, ¬ result.Accepts c.apiAudiences user) :
    Authenticated req [.authenticate result]
  | accepted {result : AuthnResult} {user : UserInfo} {l : List Event}
    (hacc : result.Accepts c.apiAudiences user)
    (h : Acted c (withUser c.keepAuthorizationHeader result user
      (withAudiences c.apiAudiences req)) l) : Authenticated req (.authenticate result :: l)

/-- The whole chain: all of it is for the request info of the request. -/
inductive Mediated (req : HttpRequest) : List Event → Prop
  | nothing : Mediated req []
  | parsed {info : RequestInfo} {l : List Event}
    (hinfo : c.newRequestInfo req.toRequest = .returned info none)
    (h : Authenticated c { req with ctx := { req.ctx with requestInfo := some info } } l) :
    Mediated req l

variable {c} {handler : Handler σ}

theorem apiHandler_yields (body : HttpRequest → σ → List String × Bool × σ) :
    (apiHandler body).Yields Entered := by
  intro req s
  have hwrites (l : List String) : mediation (l.map .write) = [] := by
    simp [mediation, Event.mediates]
  simp only [apiHandler, mediation_cons_serve, hwrites]
  exact .served

/-- Behind the authorization filter, a decision has been made. -/
theorem withAuthorization_yields (authz : AuthorizerM σ) (h : handler.Yields Entered) :
    Handler.Yields (withAuthorization (some authz) handler) Decided := by
  intro req s
  rcases withAuthorization_mediation authz handler req s with heq | ⟨a, answer, ha, heq⟩
  · rw [heq]
    exact .nothing
  · rcases heq with ⟨hallow, s', heq⟩ | ⟨-, heq⟩
    · rw [heq]
      have hentered := h req s'
      generalize mediation (handler req s').trace = l at hentered
      cases hentered with
      | nothing => exact .asked ha
      | served => exact .served ha hallow
    · rw [heq]
      exact .asked ha

/-- Behind impersonation, the user is one that may be acted as. -/
theorem withImpersonation_yields (c : ChainConfig σ) (h : handler.Yields Decided) :
    Handler.Yields (withImpersonation c.impersonation c.authorizer handler) (Acted c) := by
  intro req s
  rw [withImpersonation]
  split
  case h_1 trace s' himp =>
    exact .refused (impersonate_rejected himp)
  case h_2 trace req' s' himp =>
    rw [Served.after_trace, mediation_append]
    rcases impersonate_forwarded himp with ⟨rfl, rfl⟩ |
      ⟨requestor, requests, acc, huser, hbuild, hne, hloop, rfl⟩
    · exact .self (h req' s')
    · obtain ⟨-, -, hall⟩ := impersonationLoop_spec hloop
      rw [mediation_eq_self fun x hx => by obtain ⟨a, answer, rfl, -⟩ := hall x hx; rfl]
      exact .acting hall huser (impersonates_of_loop hbuild hne hloop) (h _ s')

theorem failedHandler_yields (c : ChainConfig σ) :
    (failedHandler c).Yields fun _ l => l = [] := by
  have hunauthorized : (unauthorized : Handler σ).Yields fun _ l => l = [] := fun _ _ => rfl
  exact (hunauthorized.through (fun _ => rfl) (withFailedAuthenticationAudit_transparent _)).through
    (fun _ => rfl) c.trackCompleted.2

/-- Behind authentication, there is a user. -/
theorem withAuthentication_yields (c : ChainConfig σ) (h : handler.Yields (Acted c)) :
    Handler.Yields (withAuthentication (some c.authenticator) (failedHandler c) c.apiAudiences
      c.keepAuthorizationHeader handler) (Authenticated c) := by
  intro req s
  obtain ⟨result, ⟨hno, heq⟩ | ⟨user, s', hacc, heq⟩⟩ := withAuthentication_mediation
    c.authenticator (failedHandler_yields c) c.apiAudiences c.keepAuthorizationHeader handler req s
  · rw [heq]
    exact .failed hno
  · rw [heq]
    exact .accepted hacc (h _ s')

theorem withRequestInfo_yields (c : ChainConfig σ) (h : handler.Yields (Authenticated c)) :
    Handler.Yields (withRequestInfo c.newRequestInfo handler) (Mediated c) := by
  intro req s
  rcases withRequestInfo_mediation c.newRequestInfo handler req s with heq | ⟨info, hinfo, heq⟩
  · rw [heq]
    exact .nothing
  · rw [heq]
    exact .parsed hinfo (h _ s)

/-- The decisions of the chain, for an arbitrary API handler. -/
theorem chain_mediated (c : ChainConfig σ) (body : HttpRequest → σ → List String × Bool × σ) :
    (defaultBuildHandlerChain c (apiHandler body)).Yields (Mediated c) := by
  -- One step for each filter that decides, the others in between leave things as they are.
  have entered := (apiHandler_yields body).through (fun _ => .nothing) c.trackCompleted.2
  have decided := (withAuthorization_yields c.authorizer entered)
    |>.through (fun _ => .nothing) (c.trackStarted "authorization").2
    |>.through (fun _ => .nothing) c.trackCompleted.2
  have acted := (withImpersonation_yields c decided)
    |>.through (fun _ => .self .nothing) (c.trackStarted "impersonation").2
    |>.through (fun _ => .self .nothing) c.trackCompleted.2
    |>.through (fun _ => .self .nothing) (withAudit_transparent c.auditing)
    |>.through (fun _ => .self .nothing) (c.trackStarted "audit").2
    |>.through (fun _ => .self .nothing) c.trackCompleted.2
  have authenticated := (withAuthentication_yields c acted)
    |>.through (fun _ => .nothing) (c.trackStarted "authentication").2
    |>.through (fun _ => .nothing) c.withSessions.2
    |>.through (fun _ => .nothing) c.withCORS.2
    |>.through (fun _ => .nothing) c.withTimeoutForNonLongRunningRequests.2
    |>.through (fun _ => .nothing) c.withRequestDeadline.2
    |>.through (fun _ => .nothing) c.withWaitGroup.2
  exact (withRequestInfo_yields c authenticated)
    |>.through (fun _ => .nothing) c.withAuditAnnotations.2
    |>.through (fun _ => .nothing) c.withWarningRecorder.2
    |>.through (fun _ => .nothing) c.withCacheControl.2
    |>.through (fun _ => .nothing) c.withHSTS.2
    |>.through (fun _ => .nothing) c.withRequestReceivedTimestamp.2
    |>.through (fun _ => .nothing) c.withHttpDump.2
    |>.through (fun _ => .nothing) c.withPanicRecovery.2

/-! ## Complete mediation -/

/-- The authorizer allowed the attributes of a request `r` that the API handler is
    then entered with. The request `r` is for the user of `req`, or for one that
    user was allowed to impersonate `before`. -/
structure Granted (c : ChainConfig σ) (req : HttpRequest) (user : UserInfo) (before : List Event)
    (a : Attributes) (answer : Answer) (r : HttpRequest) : Prop where
  attributes : getAuthorizerAttributes r.ctx = .ok a
  allow : answer.decision = .allow
  requestInfo : r.ctx.requestInfo = req.ctx.requestInfo
  user : (before = [] ∧ r.ctx.user = some user) ∨
    ∃ newUser, r.ctx.user = some newUser ∧
      Impersonates c.impersonation req.header before user newUser
  before : ∀ x ∈ before, ∃ a answer, x = .authorize a answer ∧ answer.decision = .allow

variable {l : List Event} {req : HttpRequest}

/-- From the impersonation on, only the authorizer is asked, or the API handler is
    entered at the end. -/
theorem Acted.granted {user : UserInfo} (h : Acted c req l) (huser : req.ctx.user = some user) :
    (∀ x ∈ l, ∃ a answer, x = .authorize a answer) ∨
    ∃ before a answer r, l = before ++ [.authorize a answer, .serve r] ∧
      Granted c req user before a answer r := by
  cases h with
  | refused h => exact .inl h
  | self h =>
    cases h with
    | nothing => exact .inl (by simp)
    | asked ha => exact .inl (by simp)
    | served ha hallow =>
      exact .inr ⟨[], _, _, _, rfl, ha, hallow, rfl, .inl ⟨rfl, huser⟩, by simp⟩
  | acting hbefore hrequestor himp h =>
    -- The requestor is the user that was authenticated.
    cases huser.symm.trans hrequestor
    have hasks : ∀ x ∈ _, ∃ a answer, x = Event.authorize a answer := fun x hx =>
      let ⟨a, answer, hx, _⟩ := hbefore x hx
      ⟨a, answer, hx⟩
    cases h with
    | nothing => exact .inl (by simpa using hasks)
    | asked ha =>
      refine .inl fun x hx => ?_
      rcases List.mem_append.1 hx with hx | hx
      · exact hasks x hx
      · exact ⟨_, _, List.mem_singleton.1 hx⟩
    | served ha hallow =>
      exact .inr ⟨_, _, _, _, rfl, ha, hallow, rfl, .inr ⟨_, rfl, himp⟩, hbefore⟩

/-- A request is completely mediated, as the trace of serving it shows. -/
structure CompletelyMediated (c : ChainConfig σ) (req : HttpRequest) (trace : List Event) :
    Prop where
  /-- The API handler is entered at most once. -/
  once : trace.countP Event.serves ≤ 1
  /-- Then it is the last thing decided, by a grant to a user that was accepted,
      and with the request info of the request in its context. -/
  served : ∀ r, .serve r ∈ trace → ∃ result user before a answer info req',
    mediation trace = .authenticate result :: (before ++ [.authorize a answer, .serve r]) ∧
    result.Accepts c.apiAudiences user ∧
    c.newRequestInfo req.toRequest = .returned info none ∧
    req'.ctx.requestInfo = some info ∧
    req'.header = result.keptHeader c.keepAuthorizationHeader ∧
    Granted c req' user before a answer r
  /-- The authorizer is asked only after a user was accepted. -/
  authenticated : ∀ a answer, .authorize a answer ∈ trace → ∃ result user l,
    mediation trace = .authenticate result :: l ∧ result.Accepts c.apiAudiences user
  /-- If authentication fails, the authorizer is not asked. -/
  unauthenticated : ∀ result, .authenticate result ∈ trace →
    (∀ user, ¬ result.Accepts c.apiAudiences user) → ∀ a answer, .authorize a answer ∉ trace
  /-- If authorization fails, the API handler is not entered. -/
  unauthorized : ∀ a answer, .authorize a answer ∈ trace → answer.decision ≠ .allow →
    ∀ r, .serve r ∉ trace

/-- Only the part of a trace that matters is needed for it. -/
theorem CompletelyMediated.of_mediation {trace : List Event}
    (h : CompletelyMediated c req (mediation trace)) : CompletelyMediated c req trace := by
  have hidem : mediation (mediation trace) = mediation trace := by simp [mediation]
  refine ⟨?_, fun r hr => ?_, fun a answer ha => ?_, fun result hresult hno a answer ha => ?_,
    fun a answer ha hallow r hr => ?_⟩
  · rw [← countP_serves_mediation]
    exact h.once
  · rw [← hidem]
    exact h.served r ((mem_mediation rfl).2 hr)
  · rw [← hidem]
    exact h.authenticated a answer ((mem_mediation rfl).2 ha)
  · exact h.unauthenticated result ((mem_mediation rfl).2 hresult) hno a answer
      ((mem_mediation rfl).2 ha)
  · exact h.unauthorized a answer ((mem_mediation rfl).2 ha) hallow r ((mem_mediation rfl).2 hr)

theorem countP_serves_eq_zero (h : ∀ r, .serve r ∉ l) :
    l.countP Event.serves = 0 := by
  rw [List.countP_eq_zero]
  intro x hx hserves
  cases x with
  | serve r => exact h r hx
  | _ => cases hserves

/-- Nothing is decided after the authentication, if it comes to that. -/
theorem CompletelyMediated.of_unasked (h : ∀ x ∈ l, ∃ result, x = .authenticate result) :
    CompletelyMediated c req l where
  once := by
    have hserve : ∀ r, .serve r ∉ l := fun r hr => by simpa using h _ hr
    exact (countP_serves_eq_zero hserve).trans_le (Nat.zero_le 1)
  served r hr := by simpa using h _ hr
  authenticated a answer ha := by simpa using h _ ha
  unauthenticated _ _ _ a answer ha := by simpa using h _ ha
  unauthorized a answer ha := by simpa using h _ ha

/-- The user is accepted, and the API handler is not entered. -/
theorem CompletelyMediated.of_asks {result : AuthnResult} {user : UserInfo}
    (hacc : result.Accepts c.apiAudiences user) (h : ∀ x ∈ l, ∃ a answer, x = .authorize a answer) :
    CompletelyMediated c req (.authenticate result :: l) := by
  have hserve : ∀ r, .serve r ∉ Event.authenticate result :: l := by
    intro r hr
    simpa using h (.serve r) (by simpa using hr)
  refine ⟨(countP_serves_eq_zero hserve).trans_le (Nat.zero_le 1),
    fun r hr => absurd hr (hserve r), fun a answer _ => ⟨result, user, mediation l, rfl, hacc⟩,
    fun result' hresult' hno a answer _ => ?_, fun a answer _ _ => hserve⟩
  rcases List.mem_cons.1 hresult' with heq | hmem
  · cases heq
    exact hno user hacc
  · simpa using h _ hmem

/-- The user is accepted, and the API handler is entered by a grant. -/
theorem CompletelyMediated.of_granted {req req' r : HttpRequest} {result : AuthnResult}
    {user : UserInfo} {info : RequestInfo} {before : List Event} {a : Attributes} {answer : Answer}
    (hacc : result.Accepts c.apiAudiences user)
    (hinfo : c.newRequestInfo req.toRequest = .returned info none)
    (hctx : req'.ctx.requestInfo = some info)
    (hheader : req'.header = result.keptHeader c.keepAuthorizationHeader)
    (h : Granted c req' user before a answer r) :
    CompletelyMediated c req
      (.authenticate result :: (before ++ [.authorize a answer, .serve r])) := by
  have hserve {r' : HttpRequest} : .serve r' ∉ before := fun hmem => by
    simpa using h.before _ hmem
  have hmediation : mediation before = before :=
    mediation_eq_self fun x hx => by
      obtain ⟨a, answer, rfl, -⟩ := h.before x hx
      rfl
  have hcount : before.countP Event.serves = 0 := countP_serves_eq_zero fun _ => hserve
  refine ⟨?_, fun r' hr' => ?_, fun a' answer' _ => ⟨result, user, _, rfl, hacc⟩,
    fun result' hresult' hno a' answer' _ => ?_, fun a' answer' ha' hallow r' _ => ?_⟩
  · simp [List.countP_cons, hcount, Event.serves]
  · have heq : r' = r := by simpa [hserve] using hr'
    subst heq
    refine ⟨result, user, before, a, answer, info, req', ?_, hacc, hinfo, hctx, hheader, h⟩
    simp [hmediation]
  · rcases List.mem_cons.1 hresult' with heq | hmem
    · cases heq
      exact hno user hacc
    · have hmem : .authenticate result' ∈ before := by simpa using hmem
      simpa using h.before _ hmem
  · -- All of the answers are to allow what was asked.
    rcases List.mem_append.1 (List.mem_of_ne_of_mem (by simp) ha') with hmem | hmem
    · obtain ⟨a'', answer'', heq, hallow'⟩ := h.before _ hmem
      cases heq
      exact hallow hallow'
    · have heq : a' = a ∧ answer' = answer := by simpa using hmem
      exact hallow (heq.2 ▸ h.allow)

/-- The default handler chain mediates every request completely, whatever the
    authenticator, the authorizer and the API handler. -/
theorem defaultBuildHandlerChain_mediates (c : ChainConfig σ)
    (body : HttpRequest → σ → List String × Bool × σ) (req : HttpRequest) (s : σ) :
    CompletelyMediated c req (defaultBuildHandlerChain c (apiHandler body) req s).trace := by
  apply CompletelyMediated.of_mediation
  have hmediated := chain_mediated c body req s
  generalize mediation (defaultBuildHandlerChain c (apiHandler body) req s).trace = l at hmediated
  cases hmediated with
  | nothing => exact .of_unasked (by simp)
  | parsed hinfo h =>
    cases h with
    | nothing => exact .of_unasked (by simp)
    | failed h => exact .of_unasked (by simp)
    | accepted hacc h =>
      rcases h.granted rfl with hasks | ⟨before, a, answer, r, rfl, hgranted⟩
      · exact .of_asks hacc hasks
      · refine .of_granted hacc hinfo ?_ rfl hgranted
        rw [withUser, withAudiences]
        split <;> rfl

/-- A chain for which everyone is Alice, who may do everything, and whose other
    filters do nothing. -/
def aliceChain : ChainConfig Unit where
  authenticator req s :=
    ({ response := some { user := some { name := "alice" } }, ok := true, header := req.header }, s)
  apiAudiences := []
  keepAuthorizationHeader := false
  authorizer _ s := ({ decision := .allow }, s)
  impersonation :=
    { validation := { isDNS1123Label := fun _ => [], isDNS1123Subdomain := fun _ => [] }
      pathUnescape := some }
  auditing := none
  newRequestInfo req := .returned { path := req.path, verb := "get" } none
  trackStarted _ := ⟨id, .id⟩
  trackCompleted := ⟨id, .id⟩
  withSessions := ⟨id, .id⟩
  withCORS := ⟨id, .id⟩
  withTimeoutForNonLongRunningRequests := ⟨id, .id⟩
  withRequestDeadline := ⟨id, .id⟩
  withWaitGroup := ⟨id, .id⟩
  withAuditAnnotations := ⟨id, .id⟩
  withWarningRecorder := ⟨id, .id⟩
  withCacheControl := ⟨id, .id⟩
  withHSTS := ⟨id, .id⟩
  withRequestReceivedTimestamp := ⟨id, .id⟩
  withHttpDump := ⟨id, .id⟩
  withPanicRecovery := ⟨id, .id⟩

example :
    (defaultBuildHandlerChain aliceChain (apiHandler fun _ s => (["ok"], false, s))
      { header := AList.singleton "Impersonate-User" ["bob"] } ()).trace.countP Event.serves = 1 :=
  rfl

end Apiserver
