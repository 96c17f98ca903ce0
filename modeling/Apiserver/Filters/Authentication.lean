import Apiserver.Filters.Handler

/-!
# The authentication filter

Two filters fill the context that later ones decide on: `WithRequestInfo`
(`pkg/filters/requestinfo.go`) puts the request info there, and
`WithAuthentication` (`pkg/filters/authentication.go`) the user.

* `withRequestInfo_mediation`, `withAuthentication_mediation`: the inner handler
  is called only with the request info of the request in its context, and only
  with a user the authenticator accepted the request for.
-/

namespace Apiserver

variable {σ : Type}

/-- `WithRequestInfo`, of a resolver. -/
def withRequestInfo (newRequestInfo : Go.Request → Parsed) : Filter σ := fun handler req s =>
  match newRequestInfo req.toRequest with
  | .panicked => { trace := [], panicked := true, state := s }
  | .returned _ (some err) =>
    { trace := [.respond (.internalError ("failed to create RequestInfo: " ++ err))], state := s }
  | .returned info none =>
    handler { req with ctx := { req.ctx with requestInfo := some info } } s

/-- An authenticator whose answers may depend on the state of the server. -/
abbrev AuthenticatorM (σ : Type) := HttpRequest → σ → AuthnResult × σ

/-- `audiencesAreAcceptable`, with `Audiences.Intersect`. -/
def audiencesAreAcceptable (apiAuds responseAudiences : List String) : Bool :=
  apiAuds.isEmpty || responseAudiences.isEmpty ||
    !(responseAudiences.filter fun taud => apiAuds.contains taud).isEmpty

/-- `Unauthorized`. -/
def unauthorized : Handler σ := fun _ s => { trace := [.respond .unauthorized], state := s }

/-- The request given to the authenticator. -/
def withAudiences (apiAuds : List String) (req : HttpRequest) : HttpRequest :=
  if apiAuds.isEmpty then req else { req with ctx := { req.ctx with audiences := apiAuds } }

/-- The header the authenticator left, short of the credentials unless they are kept. -/
def AuthnResult.keptHeader (keepAuthorizationHeader : Bool) (result : AuthnResult) : Go.Header :=
  if keepAuthorizationHeader then result.header else result.header.del "Authorization"

/-- The request given to the inner handler. -/
def withUser (keepAuthorizationHeader : Bool) (result : AuthnResult) (user : UserInfo)
    (req : HttpRequest) : HttpRequest :=
  { req with
    header := result.keptHeader keepAuthorizationHeader
    ctx := { req.ctx with user := some user } }

/-- `WithAuthentication`; without an authenticator it does nothing. -/
def withAuthentication (auth : Option (AuthenticatorM σ)) (failed : Handler σ)
    (apiAuds : List String) (keepAuthorizationHeader : Bool) : Filter σ :=
  match auth with
  | none => id
  | some auth => fun handler req s =>
    let req := withAudiences apiAuds req
    let (result, s) := auth req s
    -- The request keeps the header the authenticator left also when it failed.
    let failed := (failed { req with header := result.header } s).after [.authenticate result]
    if result.panicked then { trace := [.authenticate result], panicked := true, state := s }
    else if result.err ≠ none ∨ result.ok = false then failed
    else match result.response with
      | none => { trace := [.authenticate result], panicked := true, state := s }
      | some resp =>
        if audiencesAreAcceptable apiAuds resp.audiences then
          match resp.user with
          -- The log message asks the user for its name.
          | none => { trace := [.authenticate result], panicked := true, state := s }
          | some user =>
            (handler (withUser keepAuthorizationHeader result user req) s).after
              [.authenticate result]
        else failed

/-- The authenticator accepted the request as one of a user, for audiences the
    server takes. -/
structure AuthnResult.Accepts (apiAuds : List String) (result : AuthnResult) (user : UserInfo) :
    Prop where
  panicked : result.panicked = false
  err : result.err = none
  ok : result.ok = true
  response : ∃ resp, result.response = some resp ∧ resp.user = some user ∧
    audiencesAreAcceptable apiAuds resp.audiences = true

theorem AuthnResult.Accepts.of_response {apiAuds : List String} {result : AuthnResult}
    {user : UserInfo} {resp : AuthnResponse} (h : result.Accepts apiAuds user)
    (hresp : result.response = some resp) :
    resp.user = some user ∧ audiencesAreAcceptable apiAuds resp.audiences = true := by
  obtain ⟨resp', hresp', haccepts⟩ := h.response
  cases hresp.symm.trans hresp'
  exact haccepts

/-- A request goes on with its info, or not at all. -/
theorem withRequestInfo_mediation (newRequestInfo : Go.Request → Parsed) (handler : Handler σ)
    (req : HttpRequest) (s : σ) :
    mediation (withRequestInfo newRequestInfo handler req s).trace = [] ∨
    ∃ info, newRequestInfo req.toRequest = .returned info none ∧
      withRequestInfo newRequestInfo handler req s =
        handler { req with ctx := { req.ctx with requestInfo := some info } } s := by
  rw [withRequestInfo]
  split
  · exact .inl rfl
  · exact .inl rfl
  case h_3 info h => exact .inr ⟨info, h, rfl⟩

/-- The authenticator is asked first. The inner handler is called if it accepted
    the request, and otherwise at most the handler for failures. -/
theorem withAuthentication_mediation (auth : AuthenticatorM σ) {failed : Handler σ}
    (hfailed : ∀ req s, mediation (failed req s).trace = []) (apiAuds : List String) (keep : Bool)
    (handler : Handler σ) (req : HttpRequest) (s : σ) :
    ∃ result,
      ((∀ user, ¬ result.Accepts apiAuds user) ∧
        mediation (withAuthentication (some auth) failed apiAuds keep handler req s).trace =
          [.authenticate result]) ∨
      ∃ user s', result.Accepts apiAuds user ∧
        mediation (withAuthentication (some auth) failed apiAuds keep handler req s).trace =
          .authenticate result :: mediation
            (handler (withUser keep result user (withAudiences apiAuds req)) s').trace := by
  refine ⟨(auth (withAudiences apiAuds req) s).1, ?_⟩
  -- The cases are the ways out of the filter, in the order of the source.
  rw [withAuthentication]
  dsimp only
  generalize auth (withAudiences apiAuds req) s = r
  obtain ⟨result, s'⟩ := r
  dsimp only
  split
  case isTrue hpanic =>
    exact .inl ⟨fun user hacc => Bool.false_ne_true (hacc.panicked.symm.trans hpanic), rfl⟩
  case isFalse hpanic =>
  split
  case isTrue h =>
    refine .inl ⟨fun user hacc => ?_, by simp [hfailed]⟩
    rcases h with h | h
    · exact h hacc.err
    · exact Bool.false_ne_true (h.symm.trans hacc.ok)
  case isFalse h =>
    push Not at h
    split
    case h_1 hresp =>
      refine .inl ⟨fun user hacc => ?_, rfl⟩
      obtain ⟨resp, hsome, -⟩ := hacc.response
      cases hresp.symm.trans hsome
    case h_2 resp hresp =>
      split
      case isTrue haud =>
        split
        case h_1 huser =>
          refine .inl ⟨fun user hacc => ?_, rfl⟩
          cases huser.symm.trans (hacc.of_response hresp).1
        case h_2 user huser =>
          exact .inr ⟨user, s', ⟨by simpa using hpanic, h.1, by simpa using h.2, resp, hresp, huser,
            haud⟩, rfl⟩
      case isFalse haud =>
        exact .inl ⟨fun user hacc => haud (hacc.of_response hresp).2, by simp [hfailed]⟩

end Apiserver
