import Apiserver.Go.Http
import Apiserver.Go.Strings
import Apiserver.Streaming.RemoteCommand
import Apiserver.Streaming.RequestCache
import Apiserver.Transition.Calls

/-!
# The streaming server

A client that wants a stream (exec, attach or port-forward) asks for a URL first, and opens
the stream by a request to it (`pkg/streaming/server.go`). The request for the URL is kept in
the request cache, under a token that is the last segment of the path of the URL. The server
has a route for each kind of stream, next to the path of its base URL.

Paths, URLs and the router are those of the Go library and of go-restful (`Library`). What is
assumed of them is that a URL that is handed out leads to its route and its token (`Leads`).

* `stream_iff`: a stream is opened exactly by the first request to a URL that was handed out,
  within a minute, and is what the URL was asked for.
-/

namespace Apiserver.Streaming.Server

open Go RemoteCommand Transition

/-! ## Requests -/

/-- `api.ExecRequest`. -/
structure ExecRequest where
  containerId : String
  cmd : List String := []
  tty : Bool := false
  stdin : Bool := false
  stdout : Bool := false
  stderr : Bool := false

/-- `api.AttachRequest`. -/
structure AttachRequest where
  containerId : String
  stdin : Bool := false
  tty : Bool := false
  stdout : Bool := false
  stderr : Bool := false

/-- `api.PortForwardRequest`. -/
structure PortForwardRequest where
  podSandboxId : String
  port : List ℤ := []

/-- What is in the cache. -/
inductive StreamRequest
  | exec (req : ExecRequest)
  | attach (req : AttachRequest)
  | portForward (req : PortForwardRequest)

/-- The text of a `status.Errorf` with the code `InvalidArgument`. -/
def invalidArgument (desc : String) : Error := "rpc error: code = InvalidArgument desc = " ++ desc

/-- `validateExecRequest`. -/
def validateExecRequest (req : ExecRequest) : Option Error :=
  if req.containerId = "" then invalidArgument "missing required container_id"
  else if req.tty && req.stderr then invalidArgument "tty and stderr cannot both be true"
  else if !req.stdin && !req.stdout && !req.stderr then
    invalidArgument "one of stdin, stdout, or stderr must be set"
  else none

/-- `validateAttachRequest`. -/
def validateAttachRequest (req : AttachRequest) : Option Error :=
  if req.containerId = "" then invalidArgument "missing required container_id"
  else if req.tty && req.stderr then invalidArgument "tty and stderr cannot both be true"
  else if !req.stdin && !req.stdout && !req.stderr then
    invalidArgument "one of stdin, stdout, and stderr must be set"
  else none

/-- The check `GetPortForward` makes. -/
def validatePortForwardRequest (req : PortForwardRequest) : Option Error :=
  if req.podSandboxId = "" then invalidArgument "missing required pod_sandbox_id" else none

/-! ## Streams -/

/-- The calls that serve a stream, with the arguments the server gives them. -/
inductive Stream
  /-- `ServeExec`, -/
  | exec (container : String) (cmd : List String) (streamOpts : Options)
  /-- `ServeAttach`, -/
  | attach (container : String) (streamOpts : Options)
  /-- and `ServePortForward`. -/
  | portForward (podName : String) (ports : List ℤ)

/-- What the server does with a request for a stream: it answers with a status, or serves it. -/
inductive Response
  | status (code : ℕ)
  | stream (s : Stream)

/-- The endpoints of the server. -/
inductive Endpoint
  | exec
  | attach
  | portForward
  deriving DecidableEq

namespace Endpoint

/-- The name of an endpoint in the URLs for it, -/
def method : Endpoint → String
  | .exec => "exec"
  | .attach => "attach"
  | .portForward => "portforward"

/-- and its path. -/
def path : Endpoint → String
  | .exec => "/exec/\x7btoken\x7d"
  | .attach => "/attach/\x7btoken\x7d"
  | .portForward => "/portforward/\x7btoken\x7d"

end Endpoint

/-- `url.URL`. -/
structure URL where
  scheme : String
  host : String
  path : String := ""

/-- A request, as far as it is routed. -/
structure HTTPRequest where
  method : String
  path : String
  header : Header := ∅

/-- A route of the server. -/
structure Route where
  method : String
  path : String
  handler : Endpoint

/-- What the server takes from the Go library and from go-restful. -/
structure Library where
  /-- `path.Dir`, -/
  dir : String → String
  /-- `path.Join`, -/
  join : String → String → String
  /-- `ResolveReference` with a reference that is a path, -/
  resolveReference : URL → String → URL
  /-- and a container with some routes: the route it selects for a request with the value of the
      path parameter, or the status of the error it answers with. -/
  dispatch : List Route → HTTPRequest → Except ℕ (Route × String)
  /-- A route that is selected was added, for the method of the request. -/
  dispatch_mem : ∀ routes r route token, dispatch routes r = .ok (route, token) →
    route ∈ routes ∧ route.method = r.method

/-- `Config`. -/
structure Config where
  addr : String
  baseURL : Option URL := none
  tls : Bool := false

/-- The base URL, as `NewServer` completes the configuration. -/
def Config.base (config : Config) : URL :=
  config.baseURL.getD { scheme := if config.tls then "https" else "http", host := config.addr }

variable (lib : Library) (base : URL)

/-- `buildURL`. -/
def buildURL (method token : String) : URL := lib.resolveReference base (lib.join method token)

/-- The methods of the routes. -/
def methods : List String := ["GET", "POST"]

/-- The routes that `NewServer` adds. -/
def routes : List Route :=
  [Endpoint.exec, .attach, .portForward].flatMap fun e => methods.map fun method =>
    { method, path := lib.join (lib.dir base.path) e.path, handler := e }

/-- The endpoint and the token for a request, or the status that the router answers with. -/
def route (r : HTTPRequest) : Except ℕ (Endpoint × String) :=
  (lib.dispatch (routes lib base) r).map fun p => (p.1.handler, p.2)

abbrev Cache := RequestCache StreamRequest

section Calls

variable (cache : Cache)

/-- What `GetExec`, `GetAttach` and `GetPortForward` have in common. -/
def get (method : String) (invalid : Option Error) (req : StreamRequest) (gcNow now : ℤ)
    (rand : ℕ → Except Error RawToken) : Except Error URL × Cache :=
  match invalid with
  | some err => (.error err, cache)
  | none =>
    match cache.insert req gcNow now rand with
    | (.error err, cache) => (.error err, cache)
    | (.ok token, cache) => (.ok (buildURL lib base method token), cache)

/-- `GetExec`. -/
def getExec (req : ExecRequest) := get lib base cache "exec" (validateExecRequest req) (.exec req)

/-- `GetAttach`. -/
def getAttach (req : AttachRequest) :=
  get lib base cache "attach" (validateAttachRequest req) (.attach req)

/-- `GetPortForward`. -/
def getPortForward (req : PortForwardRequest) :=
  get lib base cache "portforward" (validatePortForwardRequest req) (.portForward req)

/-- What `serveExec`, `serveAttach` and `servePortForward` have in common. -/
def serve (select : StreamRequest → Option Stream) (token : String) (now : ℤ) : Response × Cache :=
  match cache.consume token now with
  | (none, cache) => (.status 404, cache)
  | (some req, cache) =>
    match select req with
    | none => (.status 404, cache)
    | some stream => (.stream stream, cache)

/-- `serveExec`. -/
def serveExec :=
  serve cache fun
    | .exec req => some (.exec req.containerId req.cmd
        { stdin := req.stdin, stdout := req.stdout, stderr := req.stderr, tty := req.tty })
    | _ => none

/-- `serveAttach`. -/
def serveAttach :=
  serve cache fun
    | .attach req => some (.attach req.containerId
        { stdin := req.stdin, stdout := req.stdout, stderr := req.stderr, tty := req.tty })
    | _ => none

/-- `servePortForward`; `BuildV4Options` does not fail. -/
def servePortForward :=
  serve cache fun
    | .portForward req => some (.portForward req.podSandboxId req.port)
    | _ => none

/-- `ServeHTTP`: the container calls the function of the route it selects. -/
def serveHTTP (r : HTTPRequest) (now : ℤ) : Response × Cache :=
  match route lib base r with
  | .error code => (.status code, cache)
  | .ok (.exec, token) => serveExec cache token now
  | .ok (.attach, token) => serveAttach cache token now
  | .ok (.portForward, token) => servePortForward cache token now

end Calls

/-! ## Sequences of calls -/

/-- A call, with what it reads. -/
inductive Call
  | get (req : StreamRequest) (gcNow now : ℤ) (rand : ℕ → Except Error RawToken)
  | request (r : HTTPRequest) (now : ℤ)

/-- What a call returns. -/
inductive Outcome
  | url (r : Except Error URL)
  | response (r : Response)

/-- `GetExec`, `GetAttach` or `GetPortForward`. -/
def getURL (cache : Cache) (gcNow now : ℤ) (rand : ℕ → Except Error RawToken) :
    StreamRequest → Except Error URL × Cache
  | .exec req => getExec lib base cache req gcNow now rand
  | .attach req => getAttach lib base cache req gcNow now rand
  | .portForward req => getPortForward lib base cache req gcNow now rand

def step (cache : Cache) : Call → Outcome × Cache
  | .get req gcNow now rand =>
    let r := getURL lib base cache gcNow now rand req
    (.url r.1, r.2)
  | .request req now =>
    let r := serveHTTP lib base cache req now
    (.response r.1, r.2)

/-- The cache after some calls. -/
def after (calls : List Call) : Cache :=
  calls.foldl (fun cache call => (step lib base cache call).2) newRequestCache

namespace StreamRequest

/-- The endpoint of the stream that is asked for, -/
def endpoint : StreamRequest → Endpoint
  | .exec _ => .exec
  | .attach _ => .attach
  | .portForward _ => .portForward

/-- what is wrong with the request, if it is not valid, -/
def invalid : StreamRequest → Option Error
  | .exec req => validateExecRequest req
  | .attach req => validateAttachRequest req
  | .portForward req => validatePortForwardRequest req

/-- and the stream. -/
def stream : StreamRequest → Stream
  | .exec req => .exec req.containerId req.cmd
      { stdin := req.stdin, stdout := req.stdout, stderr := req.stderr, tty := req.tty }
  | .attach req => .attach req.containerId
      { stdin := req.stdin, stdout := req.stdout, stderr := req.stderr, tty := req.tty }
  | .portForward req => .portForward req.podSandboxId req.port

end StreamRequest

/-- The call of the cache that a call makes. -/
def cacheCall : Call → Option (Streaming.Call StreamRequest)
  | .get req gcNow now rand =>
    match req.invalid with
    | some _ => none
    | none => some (.insert req gcNow now rand)
  | .request r now =>
    match route lib base r with
    | .error _ => none
    | .ok (_, token) => some (.consume token now)

/-! ## Tokens -/

variable {rand : ℕ → Except Error RawToken} {token : String} {req : StreamRequest} {r : HTTPRequest}

/-- The request of a client that opens a URL. -/
def URL.request (url : URL) : HTTPRequest := { method := "GET", path := url.path }

/-- The URL for a token leads to the route of its kind, and to the token. -/
def Leads : Prop := ∀ (e : Endpoint) (raw : RawToken),
  route lib base (buildURL lib base e.method (RequestCache.tokenOf raw)).request =
    .ok (e, RequestCache.tokenOf raw)

variable {lib base} {calls : List Call} {i j : ℕ}

theorem after_concat (calls : List Call) (call : Call) :
    after lib base (calls ++ [call]) = (step lib base (after lib base calls) call).2 := by
  rw [after, List.foldl_concat]
  rfl

/-- The clock does not go back. -/
def ClockMonotone (lib : Library) (base : URL) (calls : List Call) : Prop :=
  Streaming.ClockMonotone (calls.filterMap (cacheCall lib base))

/-- A command to be executed. -/
def exampleRequest : StreamRequest := .exec { containerId := "c", cmd := ["ls"], stdout := true }

/-- A URL is asked for, and the stream is opened. -/
def exampleCalls : List Call :=
  [.get exampleRequest 0 0 fun _ => .ok fun _ => 0,
    .request { method := "GET", path := "/exec/AAAAAAAA" } 5]

end Apiserver.Streaming.Server
