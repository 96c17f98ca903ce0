import Apiserver.Filters.Handler
import Apiserver.Go.Encoding

/-!
# Request authenticators

An authenticator answers with a response, whether it accepted the request, and
an error. By convention, a credential that is not there is no error, and one that
is wrong is. Modelled are the authenticators for HTTP Basic
(`plugin/authenticator/basic`), bearer tokens and websocket protocols, their
unions, and anonymous requests (`pkg/authentication/request`).

* `newUnion_of_rejected`: a union of authenticators that all reject a request has
  an error exactly when one of them has;
* `bearerAuthenticator_err`, `protocolAuthenticator_err`: a token that is rejected
  is an error.
-/

namespace Apiserver

/-- The request was rejected. -/
def AuthnResult.Rejects (r : AuthnResult) : Prop :=
  r.panicked = false ∧ (r.err ≠ none ∨ r.ok = false)

namespace Authentication

open Go

/-- `authenticator.Request`. -/
abbrev Authenticator := HttpRequest → AuthnResult

/-- What `AuthenticateToken` returns. -/
structure TokenResult where
  response : Option AuthnResponse := none
  ok : Bool := false
  err : Option Error := none

/-- `authenticator.Token`. -/
abbrev TokenAuthenticator := Context → String → TokenResult

/-- `basicProvider`: the user with a name and a password. -/
abbrev BasicProvider := Context → Bytes → Bytes → Option UserInfo

/-- What is taken from outside the repository, and the texts of errors of the
    standard library. -/
structure AuthnEnv where
  deps : Deps
  /-- `wsstream.IsWebSocketRequest`. -/
  isWebSocketRequest : HttpRequest → Bool
  /-- The text of a `base64.CorruptInputError`. -/
  corruptInput : String → Error
  /-- The text of a `url.EscapeError`. -/
  escapeError : Bytes → Error
  /-- The token cache, as it is when a request comes in, with the times to live. -/
  newTokenCache : TokenAuthenticator → Int → Int → TokenAuthenticator

variable (e : AuthnEnv)

/-- The credential is not there. -/
def absent (req : HttpRequest) : AuthnResult := { header := req.header }

/-- The credential is wrong. -/
def failure (req : HttpRequest) (err : Error) : AuthnResult :=
  { err := some err, header := req.header }

/-! ## HTTP Basic -/

/-- The user name and password in a header, `none` if it has none. -/
def basicPair (header : Header) : Except Error (Option (Bytes × Bytes)) :=
  if header.get "Authorization" = "" then .ok none
  else match splitN (header.get "Authorization") ' ' 2 with
    | ["Basic", encoded] => match stdEncoding.decodeString encoded with
      | none => .error (e.corruptInput encoded)
      | some b => match cutList 58 b with
        | none => .error "Invalid authorization message"
        | some (user, pwd) => match queryUnescape user, queryUnescape pwd with
          | some username, some password => .ok (some (username, password))
          | none, _ => .error (e.escapeError user)
          | _, none => .error (e.escapeError pwd)
    | _ => .ok none

/-- `AuthenticateRequest` of `plugin/authenticator/basic`. -/
def basicAuthenticator (provider : BasicProvider) : Authenticator := fun req =>
  match basicPair e req.header with
  | .error err => failure req err
  | .ok none => absent req
  | .ok (some (username, password)) => match provider req.ctx username password with
    -- The source returns the error of the last decoder here, which is nil.
    | none => absent req
    | some usr => { response := some { user := some usr }, ok := true, header := req.header }

/-! ## Bearer tokens -/

/-- The bearer token in a header, which is not empty. -/
def bearerToken (header : Header) : Option String :=
  let auth := trimSpace (header.get "Authorization")
  if auth = "" then none
  else match splitN auth ' ' 3 with
    | scheme :: token :: _ =>
      if toLower scheme ≠ "bearer" then none else if token = "" then none else some token
    | _ => none

/-- The answer on a token, with the header on success; a token that is not
    accepted is an error. -/
def tokenAnswer (req : HttpRequest) (r : TokenResult) (header : Header) : AuthnResult where
  response := r.response
  ok := r.ok
  err := if r.ok = false ∧ r.err = none then some "invalid bearer token" else r.err
  header := if r.ok then header else req.header

/-- `AuthenticateRequest` of `bearertoken`. -/
def bearerAuthenticator (auth : TokenAuthenticator) : Authenticator := fun req =>
  match bearerToken req.header with
  | none => absent req
  | some token => tokenAnswer req (auth req.ctx token) (req.header.del "Authorization")

/-! ## Websocket protocols -/

def bearerProtocolPrefix : String := "base64url.bearer.authorization.k8s.io."

/-- The key `textproto` makes of `Sec-WebSocket-Protocol`. -/
def protocolHeader : String := "Sec-Websocket-Protocol"

/-- The protocols in a header. -/
def protocols (header : Header) : List String :=
  (header.index protocolHeader).flatMap fun h => (split h ',').map trimSpace

/-- The loop over the protocols: the token, if one was seen, and the other
    protocols. -/
def protocolLoop : List String → Option String → List String →
    Except Error (Option String × List String)
  | [], token, filteredProtocols => .ok (token, filteredProtocols)
  | protocol :: l, token, filteredProtocols =>
    if !hasPrefix protocol bearerProtocolPrefix then
      protocolLoop l token (filteredProtocols ++ [protocol])
    else if token.isSome then .error "multiple base64.bearer.authorization tokens specified"
    else match rawURLEncoding.decodeString (trimPrefix protocol bearerProtocolPrefix) with
      | none => .error "invalid base64.bearer.authorization token encoding"
      | some decodedToken => match ofUTF8 decodedToken with
        | none => .error "invalid base64.bearer.authorization token"
        | some token => protocolLoop l (some token) filteredProtocols

/-- The token in the protocols, `none` if there is none or it is empty, and the
    other protocols. -/
def protocolToken (header : Header) : Except Error (Option (String × List String)) :=
  match protocolLoop (protocols header) none [] with
  | .error err => .error err
  | .ok (token, filteredProtocols) =>
    let token := token.getD ""
    if token ≠ "" ∧ filteredProtocols = [] then .error "missing additional subprotocol"
    else if token = "" then .ok none
    else .ok (some (token, filteredProtocols))

/-- `AuthenticateRequest` of `websocket`. -/
def protocolAuthenticator (auth : TokenAuthenticator) : Authenticator := fun req =>
  if !e.isWebSocketRequest req then absent req
  else match protocolToken req.header with
    | .error err => failure req err
    | .ok none => absent req
    | .ok (some (token, filteredProtocols)) =>
      tokenAnswer req (auth req.ctx token)
        (req.header.set protocolHeader (join filteredProtocols ","))

/-! ## Unions -/

/-- The loop of a union of request authenticators. -/
def unionLoop (failOnError : Bool) :
    List Authenticator → HttpRequest → List Error → AuthnResult
  | [], req, errlist => { err := e.deps.newAggregate errlist, header := req.header }
  | auth :: l, req, errlist =>
    let r := auth req
    if r.panicked then r
    else match r.err with
      | some err =>
        if failOnError then r
        else unionLoop failOnError l { req with header := r.header } (errlist ++ [err])
      | none =>
        if r.ok then r else unionLoop failOnError l { req with header := r.header } errlist

/-- `union.New` and `union.NewFailOnError`. -/
def newUnion (failOnError : Bool) : List Authenticator → Authenticator
  | [auth] => auth
  | l => fun req => unionLoop e failOnError l req []

/-- The loop of a union of token authenticators that does not fail on errors. -/
def tokenUnionLoop (ctx : Context) (token : String) :
    List TokenAuthenticator → List Error → TokenResult
  | [], errlist => { err := e.deps.newAggregate errlist }
  | auth :: l, errlist =>
    let r := auth ctx token
    match r.err with
    | some err => tokenUnionLoop ctx token l (errlist ++ [err])
    | none => if r.ok then r else tokenUnionLoop ctx token l errlist

/-- `tokenunion.New`. -/
def newTokenUnion : List TokenAuthenticator → TokenAuthenticator
  | [auth] => auth
  | l => fun ctx token => tokenUnionLoop e ctx token l []

/-! ## Groups and anonymous requests -/

/-- `AuthenticatedGroupAdder`. -/
def newAuthenticatedGroupAdder (auth : Authenticator) : Authenticator := fun req =>
  let r := auth req
  if r.panicked then r
  else if r.err ≠ none ∨ r.ok = false then { r with response := none }
  else match r.response with
    | some { audiences, user := some user } =>
      if user.name = anonymous then r
      else if user.groups.any fun g => g == allAuthenticated || g == allUnauthenticated then r
      else
        { r with
          response := some
            { audiences
              user := some { user with groups := user.groups ++ [allAuthenticated] } } }
    | _ => { panicked := true, header := r.header }

/-- The user of requests without credentials. -/
def anonymousUser : UserInfo := { name := anonymous, groups := [allUnauthenticated] }

/-- The anonymous authenticator. -/
def anonymousAuthenticator : Authenticator := fun req =>
  { response := some { audiences := req.ctx.audiences, user := some anonymousUser }
    ok := true
    header := req.header }

/-! ## Rejected requests -/

/-- All of the authenticators reject the request, as it gets to them. -/
def Rejected : List Authenticator → HttpRequest → Prop
  | [], _ => True
  | auth :: l, req => (auth req).Rejects ∧ Rejected l { req with header := (auth req).header }

/-- The errors on the way of a request through authenticators that reject it. -/
def errors : List Authenticator → HttpRequest → List Error
  | [], _ => []
  | auth :: l, req => (auth req).err.toList ++ errors l { req with header := (auth req).header }

variable {e}

/-- If all reject, the errors are aggregated. -/
theorem unionLoop_of_rejected {l : List Authenticator} {req : HttpRequest} (h : Rejected l req)
    (errlist : List Error) : ∃ header, unionLoop e false l req errlist =
      { err := e.deps.newAggregate (errlist ++ errors l req), header } := by
  induction l generalizing req errlist with
  | nil => exact ⟨req.header, by simp [unionLoop, errors]⟩
  | cons auth l ih =>
    -- An error is added to the list, and anything else that is rejected has none.
    obtain ⟨⟨hpanic, hrej⟩, hl⟩ := h
    rw [unionLoop, errors, if_neg (by simp [hpanic])]
    cases herr : (auth req).err with
    | some err =>
      obtain ⟨header, heq⟩ := ih hl (errlist ++ [err])
      exact ⟨header, by simpa using heq⟩
    | none =>
      have hok : (auth req).ok = false := by simpa [herr] using hrej
      obtain ⟨header, heq⟩ := ih hl errlist
      exact ⟨header, by simpa [hok] using heq⟩

theorem newUnion_cons_cons (b : Bool) (auth auth' : Authenticator) (l : List Authenticator)
    (req : HttpRequest) :
    newUnion e b (auth :: auth' :: l) req = unionLoop e b (auth :: auth' :: l) req [] := rfl

/-- A union of authenticators that all reject a request does not accept it either,
    and has an error if one of them has. -/
theorem newUnion_of_rejected {l : List Authenticator} (hl : l ≠ []) {req : HttpRequest}
    (h : Rejected l req) :
    (newUnion e false l req).Rejects ∧
      ((newUnion e false l req).err ≠ none ↔ errors l req ≠ []) := by
  have hloop : ∃ header, unionLoop e false l req [] =
      { err := e.deps.newAggregate (errors l req), header } := unionLoop_of_rejected h []
  obtain ⟨header, hloop⟩ := hloop
  match l, hl with
  | [auth], _ =>
    refine ⟨h.1, ?_⟩
    cases herr : (auth req).err <;> simp [newUnion, errors, herr]
  | auth :: auth' :: l, _ =>
    rw [newUnion_cons_cons, hloop]
    exact ⟨⟨rfl, .inr rfl⟩, by simp⟩

/-- The errors of those before some authenticators, and theirs. -/
theorem errors_append {pre post : List Authenticator} {req : HttpRequest}
    (hpre : ∀ auth ∈ pre, (auth req).Rejects → (auth req).header = req.header)
    (h : Rejected (pre ++ post) req) :
    (∀ auth ∈ pre, (auth req).Rejects) ∧ Rejected post req ∧
      errors (pre ++ post) req =
        (pre.flatMap fun auth => (auth req).err.toList) ++ errors post req := by
  induction pre with
  | nil => exact ⟨by simp, h, rfl⟩
  | cons auth pre ih =>
    obtain ⟨hauth, hrest⟩ := h
    -- The header is kept, so the request gets to the next authenticator as it was.
    rw [List.cons_append, errors]
    rw [hpre auth List.mem_cons_self hauth] at hrest ⊢
    obtain ⟨hrejects, hpost, heq⟩ :=
      ih (fun auth' h' => hpre auth' (List.mem_cons_of_mem _ h')) hrest
    refine ⟨List.forall_mem_cons.2 ⟨hauth, hrejects⟩, hpost, ?_⟩
    rw [heq, List.flatMap_cons, List.append_assoc]

theorem basicAuthenticator_header (provider : BasicProvider) (req : HttpRequest) :
    (basicAuthenticator e provider req).header = req.header := by
  rw [basicAuthenticator]
  split
  · rfl
  · rfl
  · split <;> rfl

/-- A token that is not accepted is an error. -/
theorem tokenAnswer_err {req : HttpRequest} {r : TokenResult} {header : Header}
    (h : (tokenAnswer req r header).Rejects) : (tokenAnswer req r header).err ≠ none := by
  rcases h.2 with herr | hok
  · exact herr
  · have hok : r.ok = false := hok
    cases herr : r.err <;> simp [tokenAnswer, hok, herr]

theorem bearerAuthenticator_err {auth : TokenAuthenticator} {req : HttpRequest}
    (h : (bearerAuthenticator auth req).Rejects) :
    (bearerAuthenticator auth req).err ≠ none ↔ bearerToken req.header ≠ none := by
  rw [bearerAuthenticator] at h ⊢
  cases htoken : bearerToken req.header with
  | none => simp [absent]
  | some token =>
    rw [htoken] at h
    simpa using tokenAnswer_err h

/-- If it rejects a websocket, it does so without an error only if there is no token. -/
theorem protocolAuthenticator_err {auth : TokenAuthenticator} {req : HttpRequest}
    (h : (protocolAuthenticator e auth req).Rejects) :
    (protocolAuthenticator e auth req).err ≠ none ↔
      e.isWebSocketRequest req = true ∧ protocolToken req.header ≠ .ok none := by
  rw [protocolAuthenticator] at h ⊢
  cases hws : e.isWebSocketRequest req with
  | false => simp [absent]
  | true =>
    rw [hws] at h
    cases htoken : protocolToken req.header with
    | error err => simp [failure]
    | ok token =>
      rw [htoken] at h
      cases token with
      | none => simp [absent]
      | some p => simpa using tokenAnswer_err h

end Authentication

end Apiserver
