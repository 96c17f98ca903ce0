import Apiserver.Audit.Policy
import Apiserver.Request.RequestInfo

/-!
# Handlers and filters

A handler serves a request: things happen in an order, and it returns or
panics. A filter makes a handler of a handler (`pkg/filters`). What a handler
calls on the way, an authenticator, an authorizer or a sink for audit events,
may depend on a state of the server and change it; the state is of an arbitrary
type `σ`.

Of the things that happen (`Event`), the decisions about the request, and the
API handler being entered, are what the filters are for; the rest is noise to
them. A filter is *transparent* if it adds none of the former, and calls its
inner handler once, or not at all, on the request it was given.

* `Handler.Yields`: what the decisions about a request can be, if a handler
  serves it;
* `Handler.Yields.through`: a transparent filter leaves that as it is.
-/

namespace Apiserver

/-- The values the filters keep in the context of a request. -/
structure Context where
  user : Option UserInfo := none
  requestInfo : Option RequestInfo := none
  audiences : List String := []
  deriving DecidableEq

/-- A request with its context. -/
structure HttpRequest extends Go.Request where
  ctx : Context := {}
  deriving DecidableEq

/-- `authenticator.Response`; the user may be nil. -/
structure AuthnResponse where
  audiences : List String := []
  user : Option UserInfo := none
  deriving DecidableEq

/-- What `AuthenticateRequest` returns, unless it panics; the response may be nil.
    It also leaves the request with a header, short of credentials it used. -/
structure AuthnResult where
  response : Option AuthnResponse := none
  ok : Bool := false
  err : Option Error := none
  panicked : Bool := false
  header : Go.Header
  deriving DecidableEq

/-- The responses the filters write themselves. -/
inductive Response
  | internalError (err : Error)
  | forbidden (a : Attributes) (reason : String)
  | unauthorized
  deriving DecidableEq

/-- What happens while a request is served. -/
inductive Event
  | authenticate (result : AuthnResult)
  | authorize (a : Attributes) (answer : Answer)
  /-- The API handler is entered, with this request. -/
  | serve (req : HttpRequest)
  /-- An audit event goes to the sink. -/
  | audit (stage : Audit.Stage)
  /-- An error response is written, -/
  | respond (r : Response)
  /-- or a part of another response. -/
  | write (data : String)
  /-- Anything else. -/
  | other (what : String)
  deriving DecidableEq

/-- The outcome of serving a request. -/
structure Served (σ : Type) where
  trace : List Event
  panicked : Bool := false
  state : σ

/-- A handler. -/
abbrev Handler (σ : Type) := HttpRequest → σ → Served σ

/-- A filter. -/
abbrev Filter (σ : Type) := Handler σ → Handler σ

variable {σ : Type}

/-- What happened before, and then what a handler does. -/
def Served.after (trace : List Event) (r : Served σ) : Served σ :=
  { r with trace := trace ++ r.trace }

@[simp] theorem Served.after_trace (trace : List Event) (r : Served σ) :
    (r.after trace).trace = trace ++ r.trace := rfl

/-! ## Transparent filters -/

/-- A decision about the request, or the API handler being entered. -/
def Event.mediates : Event → Bool
  | .authenticate _ | .authorize _ _ | .serve _ => true
  | .audit _ | .respond _ | .write _ | .other _ => false

/-- The API handler is entered. -/
def Event.serves : Event → Bool
  | .serve _ => true
  | _ => false

/-- The part of a trace that matters. -/
def mediation (trace : List Event) : List Event := trace.filter Event.mediates

@[simp] theorem mediation_nil : mediation [] = [] := rfl

@[simp] theorem mediation_append (l l' : List Event) :
    mediation (l ++ l') = mediation l ++ mediation l' := List.filter_append l l'

theorem mediation_eq_self {l : List Event} (h : ∀ x ∈ l, x.mediates = true) : mediation l = l :=
  List.filter_eq_self.2 h

theorem mem_mediation {x : Event} (hx : x.mediates = true) {l : List Event} :
    x ∈ mediation l ↔ x ∈ l := by
  simp [mediation, hx]

@[simp] theorem mediation_cons_respond (r : Response) (l : List Event) :
    mediation (.respond r :: l) = mediation l := rfl

@[simp] theorem mediation_cons_authenticate (r : AuthnResult) (l : List Event) :
    mediation (.authenticate r :: l) = .authenticate r :: mediation l := rfl

@[simp] theorem mediation_cons_authorize (a : Attributes) (answer : Answer) (l : List Event) :
    mediation (.authorize a answer :: l) = .authorize a answer :: mediation l := rfl

@[simp] theorem mediation_cons_serve (req : HttpRequest) (l : List Event) :
    mediation (.serve req :: l) = .serve req :: mediation l := rfl

theorem countP_serves_mediation (l : List Event) :
    (mediation l).countP Event.serves = l.countP Event.serves := by
  have heq : (fun x : Event => x.serves && x.mediates) = Event.serves := by
    funext x
    cases x <;> rfl
  rw [mediation, List.countP_filter, heq]

/-- A filter that calls its inner handler at most once, on the request it was
    given, and has no part in the decisions about it. The noise of the filter
    may be spread over that of the handler, as when a timeout runs it in a
    goroutine of its own. -/
def Transparent (f : Filter σ) : Prop :=
  ∀ (inner : Handler σ) (req : HttpRequest) (s : σ),
    mediation (f inner req s).trace = [] ∨
      ∃ s', mediation (f inner req s).trace = mediation (inner req s').trace

theorem Transparent.id : Transparent (id : Filter σ) := fun _ _ s => .inr ⟨s, rfl⟩

/-- Whatever the state, the decisions of a handler about a request are as `P` says. -/
def Handler.Yields (handler : Handler σ) (P : HttpRequest → List Event → Prop) : Prop :=
  ∀ req s, P req (mediation (handler req s).trace)

theorem Handler.Yields.through {handler : Handler σ} {P : HttpRequest → List Event → Prop}
    (h : handler.Yields P) (hnil : ∀ req, P req []) {f : Filter σ} (hf : Transparent f) :
    Handler.Yields (f handler) P := by
  intro req s
  rcases hf handler req s with heq | ⟨s', heq⟩
  · rw [heq]
    exact hnil req
  · rw [heq]
    exact h req s'

end Apiserver
