import Apiserver.Authentication.RequestHeader

/-!
# The authentication module

The module (`pkg/authentication/authentication.go`) makes one authenticator of
those its factories make. With the option for anonymous requests, a request that
is neither accepted nor has an error is one of the anonymous user. Whether wrong
credentials are kept apart from none at all is left to the single authenticators.

* `errors_authenticators`: which of them report an error for a request they reject;
* `refused_iff`: wrong credentials are refused exactly then, so a wrong password,
  for which the one for HTTP Basic reports none, is not.
-/

namespace Apiserver.Authentication

open Go

variable (e : AuthnEnv)

/-- An authenticator that leaves the header of a request it rejects, as those of
    the repository do. -/
structure KeepingAuthenticator where
  authenticate : Authenticator
  keeps : ∀ req, (authenticate req).Rejects → (authenticate req).header = req.header

/-- The authenticator for identities in headers deletes only those it has used. -/
def RequestHeader.keeping (a : RequestHeader) : KeepingAuthenticator where
  authenticate := a.authenticateRequest
  keeps req h := by
    unfold authenticateRequest at h ⊢
    dsimp only at h ⊢
    split_ifs at h ⊢
    · rfl
    · split at h
      · exact absurd h.1 (by simp)
      · exact absurd h.2 (by simp)

/-- A request authenticator that a factory makes. -/
inductive Configured
  | basic (provider : BasicProvider)
  | other (auth : KeepingAuthenticator)

def Configured.authenticator : Configured → Authenticator
  | .basic provider => basicAuthenticator e provider
  | .other auth => auth.authenticate

/-- What the factories make. -/
structure Made where
  configured : List Configured
  tokens : List TokenAuthenticator

/-- The authentication module: its options and its factories, each of which fails,
    makes nil or makes an authenticator. -/
structure AuthnModule where
  anonymous : Bool := false
  tokenSuccessCacheTTL : Int := 0
  tokenFailureCacheTTL : Int := 0
  authenticatorFactories : List (Except Error (Option Configured)) := []
  tokenAuthenticatorFactories : List (Except Error (Option TokenAuthenticator)) := []

/-- A loop over factories: the first error, or what they make. -/
def runFactories {α : Type} : List (Except Error (Option α)) → Except Error (List α)
  | [] => .ok []
  | .error err :: _ => .error err
  | .ok none :: l => runFactories l
  | .ok (some a) :: l => (runFactories l).map (a :: ·)

namespace AuthnModule

variable (m : AuthnModule)

def make : Except Error Made := do
  let configured ← runFactories m.authenticatorFactories
  let tokens ← runFactories m.tokenAuthenticatorFactories
  return { configured, tokens }

/-- The token authenticator, with a cache if results are kept. -/
def tokenAuth (tokens : List TokenAuthenticator) : TokenAuthenticator :=
  let tokenAuth := newTokenUnion e tokens
  if m.tokenSuccessCacheTTL > 0 ∨ m.tokenFailureCacheTTL > 0 then
    e.newTokenCache tokenAuth m.tokenSuccessCacheTTL m.tokenFailureCacheTTL
  else tokenAuth

/-- The authenticators for tokens, if there are tokens. -/
def tokenAuthenticators (tokens : List TokenAuthenticator) : List Authenticator :=
  if tokens.isEmpty then []
  else [bearerAuthenticator (m.tokenAuth e tokens), protocolAuthenticator e (m.tokenAuth e tokens)]

def authenticators (made : Made) : List Authenticator :=
  made.configured.map (·.authenticator e) ++ m.tokenAuthenticators e made.tokens

/-- The authenticator built of the others; nil without any, if requests have to
    be authenticated. -/
def build (authenticators : List Authenticator) : Option Authenticator :=
  if authenticators.isEmpty then if m.anonymous then some anonymousAuthenticator else none
  else
    let authenticator := newAuthenticatedGroupAdder (newUnion e false authenticators)
    if m.anonymous then some (newUnion e true [authenticator, anonymousAuthenticator])
    else some authenticator

/-- `initAuthentication`. -/
def initAuthentication : Except Error (Option Authenticator) :=
  m.make.map fun made => m.build e (m.authenticators e made)

end AuthnModule

/-! ## Wrong credentials -/

/-- The request carries a credential that one of the authenticators looks at: a
    bearer token, a websocket protocol with a token, or a user name and a
    password. -/
def Carries (made : Made) (req : HttpRequest) : Prop :=
  (made.tokens ≠ [] ∧ (bearerToken req.header ≠ none ∨
    (e.isWebSocketRequest req = true ∧
      ∃ p ∈ protocols req.header, hasPrefix p bearerProtocolPrefix = true))) ∨
  ∃ provider, .basic provider ∈ made.configured ∧
    ∃ pair, basicPair e req.header = .ok (some pair)

/-- An authentication that failed: there is an error, and no response. -/
def Refused (r : AuthnResult) : Prop := r.err ≠ none ∧ r.response = none

/-- The authenticator reports an error, which the one for HTTP Basic does for a
    message that is not well formed. -/
def Configured.Reports (req : HttpRequest) : Configured → Prop
  | .basic _ => ∃ err, basicPair e req.header = .error err
  | .other auth => (auth.authenticate req).err ≠ none

/-- A token that is not empty, or an error some other authenticator reports. -/
def Noticed (made : Made) (req : HttpRequest) : Prop :=
  (made.tokens ≠ [] ∧ (bearerToken req.header ≠ none ∨
    (e.isWebSocketRequest req = true ∧ protocolToken req.header ≠ .ok none))) ∨
  ∃ a ∈ made.configured, a.Reports e req

variable {e}

/-- The module built for anonymous requests refuses what the union has an error for,
    and lets in the rest. -/
theorem refused_build_iff {u : Authenticator} {req : HttpRequest} (h : (u req).Rejects) :
    Refused (newUnion e true [newAuthenticatedGroupAdder u, anonymousAuthenticator] req) ↔
      (u req).err ≠ none := by
  have hadder : newAuthenticatedGroupAdder u req = { u req with response := none } := by
    rw [newAuthenticatedGroupAdder]
    dsimp only
    rw [if_neg (by simp [h.1]), if_pos h.2]
  rw [newUnion_cons_cons, unionLoop, hadder, if_neg (by simp [h.1])]
  cases herr : (u req).err with
  | some err => simp [Refused, herr]
  | none =>
    have hok : (u req).ok = false := by simpa [herr] using h.2
    simp [hok, unionLoop, anonymousAuthenticator, Refused]

/-! ## Who reports an error -/

theorem Configured.keeps (a : Configured) {req : HttpRequest}
    (h : (a.authenticator e req).Rejects) : (a.authenticator e req).header = req.header := by
  cases a with
  | basic provider => exact basicAuthenticator_header provider req
  | other auth => exact auth.keeps req h

/-- A well-formed pair is never an error, however wrong. -/
theorem Configured.reports_iff (a : Configured) (req : HttpRequest) :
    (a.authenticator e req).err ≠ none ↔ a.Reports e req := by
  cases a with
  | other auth => rfl
  | basic provider =>
    rw [Configured.authenticator, Configured.Reports, basicAuthenticator]
    split
    case h_1 err h => simp [h, failure]
    case h_2 h => simp [h, absent]
    case h_3 username password h =>
      rw [h]
      split <;> simp [absent]

/-- Among the authenticators for tokens, a bearer token or a websocket token is an error. -/
theorem errors_tokenAuthenticators {m : AuthnModule} {tokens : List TokenAuthenticator}
    {req : HttpRequest} (h : Rejected (m.tokenAuthenticators e tokens) req) :
    errors (m.tokenAuthenticators e tokens) req ≠ [] ↔
      tokens ≠ [] ∧ (bearerToken req.header ≠ none ∨
        (e.isWebSocketRequest req = true ∧ protocolToken req.header ≠ .ok none)) := by
  rw [AuthnModule.tokenAuthenticators] at h ⊢
  split at h
  case isTrue hempty => simp [List.isEmpty_iff.1 hempty, errors]
  case isFalse hempty =>
    have hne : tokens ≠ [] := by simpa using hempty
    rw [if_neg hempty, and_iff_right hne]
    obtain ⟨hbearer, hprotocol, -⟩ := h
    have herr := bearerAuthenticator_err hbearer
    by_cases htoken : bearerToken req.header = none
    · -- Without a bearer token the header is kept.
      have habsent : bearerAuthenticator (m.tokenAuth e tokens) req = absent req := by
        rw [bearerAuthenticator, htoken]
      rw [habsent] at hprotocol
      have hprotocol : (protocolAuthenticator e (m.tokenAuth e tokens) req).Rejects := hprotocol
      have herrors : errors [bearerAuthenticator (m.tokenAuth e tokens),
          protocolAuthenticator e (m.tokenAuth e tokens)] req =
          (protocolAuthenticator e (m.tokenAuth e tokens) req).err.toList := by
        rw [errors, habsent]
        simp [errors, absent]
      rw [herrors, ← protocolAuthenticator_err hprotocol]
      simp [htoken]
    · have herr' := herr.2 htoken
      obtain ⟨err, herr'⟩ := Option.ne_none_iff_exists'.1 herr'
      simp [errors, herr', htoken]

/-- Among all authenticators, what is noticed is an error. -/
theorem errors_authenticators {m : AuthnModule} {made : Made} {req : HttpRequest}
    (h : Rejected (m.authenticators e made) req) :
    errors (m.authenticators e made) req ≠ [] ↔ Noticed e made req := by
  have hkeeps : ∀ auth ∈ made.configured.map (·.authenticator e),
      (auth req).Rejects → (auth req).header = req.header := by
    intro auth hauth hrejects
    obtain ⟨a, -, rfl⟩ := List.mem_map.1 hauth
    exact a.keeps hrejects
  obtain ⟨-, htokens, heq⟩ := errors_append hkeeps h
  have hconfigured : (made.configured.map (·.authenticator e)).flatMap
      (fun auth => (auth req).err.toList) ≠ [] ↔ ∃ a ∈ made.configured, a.Reports e req := by
    simp [← Configured.reports_iff]
  rw [AuthnModule.authenticators, heq, Noticed, ← errors_tokenAuthenticators htokens,
    ← hconfigured, Ne, List.append_eq_nil_iff, not_and_or, or_comm]

/-- If requests without credentials are let in, a request whose credentials all
    authenticators reject is refused exactly when an authenticator notices them:
    they are a token, or some other authenticator reports an error. -/
theorem refused_iff {m : AuthnModule} (hanonymous : m.anonymous = true) {made : Made}
    (hmade : m.make = .ok made) {req : HttpRequest} (hcarries : Carries e made req)
    (hrejected : Rejected (m.authenticators e made) req) :
    ∃ auth, m.initAuthentication e = .ok (some auth) ∧
      (Refused (auth req) ↔ Noticed e made req) := by
  have hne : m.authenticators e made ≠ [] := by
    rw [AuthnModule.authenticators, AuthnModule.tokenAuthenticators]
    rcases hcarries with ⟨htokens, -⟩ | ⟨provider, hmem, -⟩
    · simp [htokens]
    · have hconfigured : made.configured ≠ [] := List.ne_nil_of_mem hmem
      simp [hconfigured]
  obtain ⟨hunion, herr⟩ := newUnion_of_rejected (e := e) hne hrejected
  refine ⟨newUnion e true [newAuthenticatedGroupAdder (newUnion e false (m.authenticators e made)),
    anonymousAuthenticator], ?_, ?_⟩
  · simp [AuthnModule.initAuthentication, hmade, Except.map, AuthnModule.build, hne, hanonymous]
  · rw [refused_build_iff hunion, herr, errors_authenticators hrejected]

/-- No request is one of a websocket, and nothing is cached. -/
def plainEnv : AuthnEnv where
  deps := .plain
  isWebSocketRequest _ := false
  corruptInput _ := "illegal base64 data"
  escapeError _ := "invalid URL escape"
  newTokenCache auth _ _ := auth

/-- A proxy that passes on the names of users. -/
def remoteUser : RequestHeader where
  nameHeaders := ["X-Remote-User"]
  groupHeaders := []
  extraHeaderPrefixes := []

/-- Users with a password, users of a proxy, and users with a token: there are none. -/
def noUsers : AuthnModule where
  anonymous := true
  authenticatorFactories :=
    [.ok (some (.basic fun _ _ _ => none)), .ok (some (.other remoteUser.keeping))]
  tokenAuthenticatorFactories := [.ok (some fun _ _ => {})]

/-- What the factories of `noUsers` make. -/
def noUsersMade : Made where
  configured := [.basic fun _ _ _ => none, .other remoteUser.keeping]
  tokens := [fun _ _ => {}]

/-- A request with an authorization. -/
def authorized (value : String) : HttpRequest where
  header := AList.singleton "Authorization" [value]

theorem wrong_token_refused :
    ∃ auth, noUsers.initAuthentication plainEnv = .ok (some auth) ∧
      Refused (auth (authorized "Bearer wrong")) := by
  have htoken : bearerToken (authorized "Bearer wrong").header = some "wrong" := by decide
  have hrejected : Rejected (noUsers.authenticators plainEnv noUsersMade)
      (authorized "Bearer wrong") :=
    ⟨⟨rfl, .inr rfl⟩, ⟨rfl, .inr rfl⟩, ⟨rfl, .inr rfl⟩, ⟨rfl, .inr rfl⟩, trivial⟩
  have hbearer : noUsersMade.tokens ≠ [] ∧
      bearerToken (authorized "Bearer wrong").header ≠ none :=
    ⟨List.cons_ne_nil _ _, by simp [htoken]⟩
  obtain ⟨auth, hinit, hiff⟩ := refused_iff (e := plainEnv) (m := noUsers) rfl rfl
    (.inl ⟨hbearer.1, .inl hbearer.2⟩) hrejected
  exact ⟨auth, hinit, hiff.2 (.inl ⟨hbearer.1, .inl hbearer.2⟩)⟩

/-- Alice's wrong password is rejected by the only authenticator that looks at it,
    and the request is let in as one of the anonymous user. -/
theorem wrong_password_anonymous :
    basicPair plainEnv (authorized "Basic YWxpY2U6d3Jvbmc=").header =
      .ok (some ([97, 108, 105, 99, 101], [119, 114, 111, 110, 103])) ∧
    noUsers.make = .ok noUsersMade ∧
    Carries plainEnv noUsersMade (authorized "Basic YWxpY2U6d3Jvbmc=") ∧
    Rejected (noUsers.authenticators plainEnv noUsersMade)
      (authorized "Basic YWxpY2U6d3Jvbmc=") ∧
    ∃ auth, noUsers.initAuthentication plainEnv = .ok (some auth) ∧
      (auth (authorized "Basic YWxpY2U6d3Jvbmc=")).response =
        some { user := some { name := "system:anonymous", groups := ["system:unauthenticated"] } } ∧
      (auth (authorized "Basic YWxpY2U6d3Jvbmc=")).ok = true ∧
      (auth (authorized "Basic YWxpY2U6d3Jvbmc=")).err = none ∧
      ¬ Refused (auth (authorized "Basic YWxpY2U6d3Jvbmc=")) := by
  have hpair : basicPair plainEnv (authorized "Basic YWxpY2U6d3Jvbmc=").header =
      .ok (some ([97, 108, 105, 99, 101], [119, 114, 111, 110, 103])) := rfl
  refine ⟨hpair, rfl, .inr ⟨_, List.mem_cons_self, _, hpair⟩, ?_, _, rfl, rfl, rfl, rfl, ?_⟩
  · exact ⟨⟨rfl, .inr rfl⟩, ⟨rfl, .inr rfl⟩, ⟨rfl, .inr rfl⟩, ⟨rfl, .inr rfl⟩, trivial⟩
  · exact fun h => h.1 rfl

end Apiserver.Authentication
