import Apiserver.Rest.RouteBuilder

/-!
# Response writers

A response writer (`RespWriter` in `pkg/rest/responsewriter.go`) writes what the
functions of routes return, and is told which routes it does so for: `AddRoute`
lets it document their responses. A route names its own, or else has the one of
the options of its web service, or else the default.

`registerHandle` adds the route to the writer of the route. But it makes the
handle with `p.RespWriter`, and `p` is the builder, which embeds the options.

* `newRouteBuilder_respWriter`: the writer a route is added to;
* `build_respWriter`: it writes the responses of the route exactly if the route
  names none, or the one of the options.
-/

namespace Apiserver.Rest

variable {F W V : Type}

/-- A response, and what writes it. -/
structure Response (W V : Type) where
  writer : Option W
  data : Option V
  err : Option Error

/-- The responses to a request for a route that has been built with options. The
    handle has been given the writer of the options; `noneHandle` writes nothing. -/
def WsOption.responses (e : BuildEnv F W V) (opt : WsOption F W V) (rb : Route F W V)
    (req : RestfulRequest) : List (Response W V) :=
  match rb.handle with
  | none => []
  | some rh => (rh.handler e.toEnv req).filterMap fun
    | .respWrite data err => some { writer := opt.respWriter, data, err }
    | _ => none

variable {e : BuildEnv F W V} {opt : WsOption F W V}

theorem addFilters_respWriter {wr wr' : WsRoute F W V} (h : opt.addFilters wr = .ok wr') :
    wr'.respWriter = wr.respWriter := by
  rw [WsOption.addFilters] at h
  dsimp only at h
  split at h
  case h_1 => cases h
  case h_2 =>
    cases h
    rfl

/-- A handle comes with the writer of its route. -/
theorem registerHandle_respWriter {wr : WsRoute F W V} {handle : Option (RouteHandle V)}
    {respWriter : Option W} (h : registerHandle e opt wr = .ok (handle, respWriter)) :
    handle = none ∨ respWriter = wr.respWriter := by
  rw [registerHandle] at h
  split at h
  case h_1 =>
    cases h
    exact .inl rfl
  case h_2 =>
    split at h
    case h_1 => cases h
    case h_2 =>
      obtain ⟨_, -, h⟩ := bind_eq_ok h
      cases h
      exact .inr rfl

/-- The writer a route is added to, if it has a handle: its own, or else the one
    of the options. -/
theorem newRouteBuilder_respWriter {wr : WsRoute F W V} {rb : Route F W V}
    (h : newRouteBuilder e opt wr = .ok rb) :
    rb.handle = none ∨ rb.respWriter = (wr.respWriter <|> opt.respWriter) := by
  rw [newRouteBuilder] at h
  obtain ⟨wr', hwr', h⟩ := bind_eq_ok h
  dsimp only at h
  split at h
  case h_1 => cases h
  case h_2 method _ =>
    obtain ⟨⟨handle, respWriter⟩, hregister, h⟩ := bind_eq_ok h
    cases h
    have hown := addFilters_respWriter hwr'
    have hwriter := registerHandle_respWriter hregister
    rwa [hown] at hwriter

/-- Every response of a route is written by the options' writer. -/
theorem writer_of_mem_responses {rb : Route F W V} {req : RestfulRequest} {r : Response W V}
    (hr : r ∈ opt.responses e rb req) : rb.handle ≠ none ∧ r.writer = opt.respWriter := by
  rw [WsOption.responses] at hr
  cases hrb : rb.handle with
  | none => simp [hrb] at hr
  | some rh =>
    simp only [hrb, List.mem_filterMap] at hr
    obtain ⟨event, -, hevent⟩ := hr
    split at hevent
    case h_1 =>
      cases hevent
      exact ⟨Option.some_ne_none rh, rfl⟩
    case h_2 => cases hevent

/-- The own writer of a route, or else the one of the options, is the one of the
    options. -/
theorem own_or_eq_iff {own opt : Option W} :
    opt = (own <|> opt) ↔ own = none ∨ own = opt := by
  cases own with
  | none => simp
  | some w => simp [eq_comm]

/-- What is promised of a route that has been built: a response is written by
    what the route was added to, its own writer or else the one of the options or
    else the default. -/
def Written (e : BuildEnv F W V) (opt : WsOption F W V) (wr : WsRoute F W V) (rb : Route F W V)
    (r : Response W V) : Prop :=
  rb.respWriter = (wr.respWriter <|> opt.respWriter <|> some e.defaultRespWriter) ∧
    r.writer = rb.respWriter

/-- A response of a route is written by what the route was added to exactly if
    the route does not name a writer, or the one of the options. -/
theorem build_respWriter {opt : WsOption F W V} {rbs : List (Route F W V)}
    (h : build e opt = .ok rbs) :
    List.Forall₂ (fun wr rb => ∀ req, ∀ r ∈ (opt.validate e).responses e rb req,
      (Written e opt wr rb r ↔
        wr.respWriter = none ∨
          wr.respWriter = (opt.respWriter <|> some e.defaultRespWriter))) opt.routes rbs := by
  refine (buildRoutes_forall₂ h).imp fun wr rb hrb req r hr => ?_
  obtain ⟨hhandle, hwriter⟩ := writer_of_mem_responses hr
  have hadded := (newRouteBuilder_respWriter hrb).resolve_left hhandle
  have hadded : rb.respWriter = (wr.respWriter <|> opt.respWriter <|> some e.defaultRespWriter) :=
    hadded
  have hwriter : r.writer = (opt.respWriter <|> some e.defaultRespWriter) := hwriter
  rw [Written, hwriter, hadded]
  exact (and_iff_right rfl).trans own_or_eq_iff

/-- A service with a writer, and a route that may have its own. -/
def exampleWriters (own : Option String) : WsOption String String String where
  respWriter := some "options"
  routes := [{ handle := some exampleHandle, respWriter := own }]

/-- A request whose path has the parameter. -/
def exampleWriterRequest : RestfulRequest where
  pathParameters := AList.singleton "id" "1"

theorem exampleWriters_written : ∃ rb, build exampleBuildEnv (exampleWriters none) = .ok [rb] ∧
    ∀ r ∈ ((exampleWriters none).validate exampleBuildEnv).responses exampleBuildEnv rb
      exampleWriterRequest, Written exampleBuildEnv (exampleWriters none)
        { handle := some exampleHandle } rb r := by
  obtain ⟨rb, hbuild⟩ : ∃ rb, build exampleBuildEnv (exampleWriters none) = .ok [rb] := ⟨_, rfl⟩
  obtain ⟨h, -⟩ := List.forall₂_cons.1 (build_respWriter hbuild)
  exact ⟨rb, hbuild, fun r hr => (h exampleWriterRequest r hr).2 (.inl rfl)⟩

/-- The writer of a route is told about it, but another writes its responses. -/
theorem exampleWriters_not_written : ∃ rb,
    build exampleBuildEnv (exampleWriters (some "own")) = .ok [rb] ∧
    rb.respWriter = some "own" ∧
    (((exampleWriters (some "own")).validate exampleBuildEnv).responses exampleBuildEnv rb
      exampleWriterRequest).map Response.writer = [some "options"] :=
  ⟨_, rfl, rfl, rfl⟩

end Apiserver.Rest
