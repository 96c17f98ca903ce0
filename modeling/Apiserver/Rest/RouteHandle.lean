import Apiserver.Basic
import Apiserver.Go.Http
import Apiserver.Go.Strings

/-!
# Route handles

A route handle (`pkg/rest/routehandle.go`) makes an HTTP handler of a function
`func(http.ResponseWriter, *http.Request, param *P, body *B) (out, error)`. The
function is inspected once, when the handle is built (`newRouteHandle`); for
every request the handle then decodes and validates the param and the body
(`readEntity`), and either calls the function or writes an error response
(`handler`).

Values of Go types are an arbitrary type `V`. The parameter codec, the
serializers and the `Validate` methods are arbitrary functions on it; the ones
that fill an object return it also when they fail, as they may have filled a
part of it.

* `newRouteHandle_spec`: the handle reads what the signature of the function
  asks for, one param and one body at most;
* `handler_of_accepted`, `handler_of_rejected`, `handler_of_decodeParam_error`:
  what the handle does on input that passes every stage, on input that fails at
  a stage, and on input that fails at the first one;
* `gated_iff`: so the function is called on accepted input only, and an error
  response written otherwise, exactly when the parameters decode.
-/

namespace Apiserver.Rest

open Go

/-! ## Types and values -/

/-- A `reflect.Type`: its `String()`, its kind and the types it is made of. -/
inductive GoType
  | ptr (string : String) (elem : GoType)
  | func (string : String) (ins outs : List GoType)
  | struct (string : String)
  | slice (string : String)
  | map (string : String)
  | other (string : String)

/-- `String()` of a type. -/
def GoType.string : GoType → String
  | .ptr s _ => s
  | .func s _ _ => s
  | .struct s => s
  | .slice s => s
  | .map s => s
  | .other s => s

/-- `api.Parameters`. -/
structure Parameters where
  header : Header
  path : AList fun _ : String => String
  query : Header

/-- `runtime.SerializerInfo`: a media type and its decoder. -/
structure SerializerInfo (V : Type) where
  mediaType : String
  /-- Whether there is a `StreamSerializer`. -/
  streams : Bool := false
  decode : List UInt8 → V → V × Option Error

/-- What a route handle is given, and what it takes from outside the repository. -/
structure Env (V : Type) where
  /-- `DecodeParameters` of the parameter codec. -/
  decodeParameters : Parameters → V → V × Option Error
  /-- `ValidateParamType` of the parameter codec. -/
  validateParamType : GoType → Option Error
  /-- `SupportedMediaTypes` of the serializer. The first one is the default. -/
  supportedMediaTypes : List (SerializerInfo V)
  supportedMediaTypes_ne_nil : supportedMediaTypes ≠ []
  /-- `runtime.SerializerInfoForMediaType`. -/
  serializerInfoForMediaType : List (SerializerInfo V) → String → Option (SerializerInfo V)
  /-- `mime.ParseMediaType`, short of the parameters. -/
  parseMediaType : String → Except Error String
  /-- `reflect.New(rt).Interface()`: a pointer to a zero value. -/
  new : GoType → V
  /-- `Validate` of the values that have one. -/
  validator : V → Option (V × Option Error)
  /-- The error in a value, if it holds one. -/
  asError : V → Option Error
  /-- `errors.Wrap`: an error with a message before it. -/
  wrap : Error → String → Error

/-- A `restful.Request`: the request, the parameters in its path, and what
    reading its body gives. -/
structure RestfulRequest where
  request : Request := {}
  pathParameters : AList fun _ : String => String := ∅
  body : Except Error (List UInt8) := .ok []

/-- The function a handle is made of: its name, the name of its code, its type,
    and what it returns for its arguments after the request. -/
structure Handle (V : Type) where
  name : String := ""
  funcName : String := ""
  type : GoType
  call : RestfulRequest → List (Option V) → List V

variable {V : Type} (e : Env V)

/-! ## Building a handle -/

inductive RequestType
  | param
  | body
  deriving DecidableEq

/-- `routeHandle`. The response type, which only the documentation of the route
    uses, is left out. -/
structure RouteHandle (V : Type) where
  handle : Handle V
  ins : List RequestType := []
  param : Option GoType := none
  body : Option GoType := none

/-- `validateHandle`. -/
def validateHandle (name : String) (ins outs : List GoType) : Option Error :=
  if ins.length < 2 ∨ ins.length > 4 then
    some (name ++ ".NumIn() " ++ toString ins.length ++ " expected [2,4]")
  else if ins[0]?.map GoType.string ≠ some "http.ResponseWriter" then
    some ("expected func " ++ name ++ "(*http.Request, http.ResponseWriter, ...)")
  else if ins[1]?.map GoType.string ≠ some "*http.Request" then
    some ("expected func " ++ name ++ "(*http.Request, http.ResponseWriter, ...)")
  else match outs with
    | [] => none
    | [o] =>
      if o.string ≠ "error" then
        some ("func " ++ name ++ " expected return error, got " ++ o.string)
      else none
    | [_, o] =>
      if o.string ≠ "error" then
        some ("func " ++ name ++ " expected return (***, error), got (***, " ++ o.string ++ ")")
      else none
    | _ => some (name ++ ".NumOut() " ++ toString outs.length ++ " expected [0, 2]")

/-- `validateParamType`. -/
def validateParamType : GoType → Option Error
  | .struct _ => none
  | _ => some "param just support ptr to struc"

/-- `validateBodyType`. -/
def validateBodyType : GoType → Option Error
  | .struct _ | .slice _ | .map _ => none
  | _ => some "just support ptr to struct|slice|map"

/-- `isParam`: the parameter codec knows the type. -/
def isParam (t : GoType) : Bool := e.validateParamType t = none

/-- The loop of `initHandleIO`, over the arguments after the request. -/
def initHandleIn : List GoType → RouteHandle V → Except Error (RouteHandle V)
  | [], p => .ok p
  | .ptr _ t :: l, p =>
    if isParam e t then
      match validateParamType t with
      | some err => .error (e.wrap err "request param type invlid")
      | none =>
        if p.param.isSome then .error "duplicate request param field"
        else initHandleIn l { p with param := some t, ins := p.ins ++ [.param] }
    else
      match validateBodyType t with
      | some err => .error (e.wrap err "get request body type")
      | none =>
        if p.body.isSome then .error "duplicate request body field"
        else initHandleIn l { p with body := some t, ins := p.ins ++ [.body] }
  | _ :: _, _ => .error "payload must be a ptr"

/-- `NewRouteHandle`. -/
def newRouteHandle (handle : Handle V) : Except Error (RouteHandle V) :=
  match handle.type with
  | .func string ins outs =>
    match validateHandle handle.name ins outs with
    | some err =>
      .error (e.wrap err ("validate handle function " ++ handle.funcName ++ " " ++ string))
    | none => match initHandleIn e (ins.drop 2) { handle } with
      | .error err => .error (e.wrap err "init handleIO")
      | .ok p => .ok p
  | _ => .error (handle.name ++ " expected func")

/-! ## Reading a request -/

/-- `NegotiateInputSerializerForMediaType`. -/
def negotiateInputSerializerForMediaType (mediaType : String) (streaming : Bool) :
    Except Error (SerializerInfo V) :=
  let mediaTypes := e.supportedMediaTypes
  let mediaType :=
    if mediaType.isEmpty then (mediaTypes.head e.supportedMediaTypes_ne_nil).mediaType
    else mediaType
  let unsupported :=
    let accepted := if streaming then
        (mediaTypes.filter (·.streams)).map (·.mediaType ++ ";stream=watch")
      else mediaTypes.map (·.mediaType)
    .error ("the body of the request was in an unknown format - accepted media types include: " ++
      join accepted ", ")
  match e.parseMediaType mediaType with
  | .error _ => unsupported
  | .ok mediaType => match e.serializerInfoForMediaType mediaTypes mediaType with
    | none => unsupported
    | some info => .ok info

/-- Decoding the parameters of a request into a param. -/
def decodeParam (req : RestfulRequest) (param : V) : V × Option Error :=
  e.decodeParameters
    { header := req.request.header, path := req.pathParameters, query := req.request.query } param

/-- Decoding the body of a request, by the serializer for its content type. -/
def decodeBody (req : RestfulRequest) (body : V) : V × Option Error :=
  match negotiateInputSerializerForMediaType e (req.request.header.get "Content-Type") false with
  | .error err => (body, some err)
  | .ok s => match req.body with
    | .error err => (body, some err)
    | .ok buff => s.decode buff body

/-- `Validate`, if the value has one. -/
def validate (v : V) : V × Option Error := (e.validator v).getD (v, none)

/-- The second half of `readEntity`: the body. -/
def readBody (req : RestfulRequest) (param body : Option V) :
    (Option V × Option V) × Option Error :=
  match body with
  | none => ((param, none), none)
  | some body => match decodeBody e req body with
    | (body, some err) => ((param, some body), some err)
    | (body, none) => match validate e body with
      | (body, err) => ((param, some body), err)

/-- `readEntity`: the param and the body as they have been filled, and the error. -/
def readEntity (req : RestfulRequest) (param body : Option V) :
    (Option V × Option V) × Option Error :=
  match param with
  | none => readBody e req none body
  | some param => match decodeParam e req param with
    -- The source returns nil here, not the error.
    | (param, some _) => ((some param, body), none)
    | (param, none) => match validate e param with
      | (param, some err) => ((some param, body), some err)
      | (param, none) => readBody e req (some param) body

/-! ## Handling a request -/

/-- What a handle does that can be seen from outside. -/
inductive Event (V : Type)
  | logRequestObject (body : Option V)
  /-- The function is called, with these arguments after the request. -/
  | call (args : List (Option V))
  | respWrite (data : Option V) (err : Option Error)
  /-- `SetAttribute("error", err)`. -/
  | setError (err : Error)
  deriving DecidableEq

/-- The response to what the function returned. -/
def respond : List V → List (Event V)
  | [err] =>
    .respWrite none (e.asError err) :: ((e.asError err).map Event.setError).toList
  | [data, err] =>
    .respWrite (some data) (e.asError err) :: ((e.asError err).map Event.setError).toList
  | _ => []

/-- The argument of a type. -/
def RequestType.select (entity : Option V × Option V) : RequestType → Option V
  | .param => entity.1
  | .body => entity.2

/-- `Handler`: what happens on a request. -/
def RouteHandle.handler (p : RouteHandle V) (req : RestfulRequest) : List (Event V) :=
  match readEntity e req (p.param.map e.new) (p.body.map e.new) with
  | (_, some err) => [.respWrite none (some err)]
  | (entity, none) =>
    let args := p.ins.map (RequestType.select entity)
    .logRequestObject entity.2 :: .call args :: respond e (p.handle.call req args)

/-! ## What the signature asks for -/

/-- The types a list of arguments points to. -/
def elems (l : List GoType) : List GoType :=
  l.filterMap fun
    | .ptr _ t => some t
    | _ => none

/-- The types the arguments of a function after the request point to. -/
def Handle.payloads (handle : Handle V) : List GoType :=
  match handle.type with
  | .func _ ins _ => elems (ins.drop 2)
  | _ => []

/-- The function asks for a param of type `t`. -/
def Handle.AsksParam (handle : Handle V) (t : GoType) : Prop :=
  t ∈ handle.payloads ∧ isParam e t = true

/-- The function asks for a body of type `t`. -/
def Handle.AsksBody (handle : Handle V) (t : GoType) : Prop :=
  t ∈ handle.payloads ∧ isParam e t = false

/-- Where an argument of type `t` is read from. -/
def requestType (t : GoType) : RequestType := if isParam e t then .param else .body

/-- A handle reads what its function asks for. -/
structure RouteHandle.Reads (p : RouteHandle V) : Prop where
  param : ∀ t, p.param = some t ↔ p.handle.AsksParam e t
  body : ∀ t, p.body = some t ↔ p.handle.AsksBody e t
  ins : p.ins = p.handle.payloads.map (requestType e)

theorem mem_cons_isParam {t u : GoType} {l : List GoType} {b : Bool} :
    u ∈ t :: l ∧ isParam e u = b ↔ (t = u ∧ isParam e t = b) ∨ (u ∈ l ∧ isParam e u = b) := by
  rw [List.mem_cons]
  constructor
  · rintro ⟨rfl | hu, hb⟩
    · exact .inl ⟨rfl, hb⟩
    · exact .inr ⟨hu, hb⟩
  · rintro (⟨rfl, hb⟩ | ⟨hu, hb⟩)
    · exact ⟨.inl rfl, hb⟩
    · exact ⟨.inr hu, hb⟩

/-- The loop adds what its arguments ask for to what has been found before. -/
theorem initHandleIn_spec {l : List GoType} {p q : RouteHandle V}
    (h : initHandleIn e l p = .ok q) :
    q.handle = p.handle ∧
    (∀ t, q.param = some t ↔ p.param = some t ∨ (t ∈ elems l ∧ isParam e t = true)) ∧
    (∀ t, q.body = some t ↔ p.body = some t ∨ (t ∈ elems l ∧ isParam e t = false)) ∧
    q.ins = p.ins ++ (elems l).map (requestType e) := by
  induction l generalizing p with
  | nil =>
    rw [initHandleIn] at h
    cases h
    simp [elems]
  | cons a l ih =>
    cases a with
    | ptr s t =>
      have helems : elems (.ptr s t :: l) = t :: elems l := rfl
      rw [helems]
      rw [initHandleIn] at h
      -- The argument is a param or a body; there has been none of that kind before.
      split at h
      case isTrue ht =>
        split at h
        · cases h
        split_ifs at h with hp
        obtain ⟨hhandle, hparam, hbody, hins⟩ := ih h
        rw [Option.not_isSome_iff_eq_none] at hp
        refine ⟨hhandle, fun u => ?_, fun u => ?_, ?_⟩
        · rw [hparam, mem_cons_isParam]
          simp [hp, ht]
        · rw [hbody, mem_cons_isParam]
          simp [ht]
        · simp [hins, requestType, ht]
      case isFalse ht =>
        split at h
        · cases h
        split_ifs at h with hp
        obtain ⟨hhandle, hparam, hbody, hins⟩ := ih h
        rw [Option.not_isSome_iff_eq_none] at hp
        refine ⟨hhandle, fun u => ?_, fun u => ?_, ?_⟩
        · rw [hparam, mem_cons_isParam]
          simp [ht]
        · rw [hbody, mem_cons_isParam]
          simp [hp, ht]
        · simp [hins, requestType, ht]
    | _ => cases h

/-- A handle that is built is one of its function, and reads what it asks for. -/
theorem newRouteHandle_spec {handle : Handle V} {p : RouteHandle V}
    (h : newRouteHandle e handle = .ok p) : p.handle = handle ∧ p.Reads e := by
  rw [newRouteHandle] at h
  split at h
  case h_2 => cases h
  case h_1 s ins outs htype =>
    split at h
    · cases h
    split at h
    · cases h
    case h_2 q hq =>
      cases h
      obtain ⟨hhandle, hparam, hbody, hins⟩ := initHandleIn_spec e hq
      have hpayloads : p.handle.payloads = elems (ins.drop 2) := by
        rw [hhandle, Handle.payloads, htype]
      refine ⟨hhandle, fun t => ?_, fun t => ?_, ?_⟩
      · simp [hparam, Handle.AsksParam, hpayloads]
      · simp [hbody, Handle.AsksBody, hpayloads]
      · simp [hins, hpayloads]

/-! ## The gate before the function -/

section Gate

variable (handle : Handle V) (req : RestfulRequest)

/-- A param of type `t` as the request fills it. -/
def filledParam (t : GoType) : V := (decodeParam e req (e.new t)).1

/-- A body of type `t` as the request fills it. -/
def filledBody (t : GoType) : V := (decodeBody e req (e.new t)).1

/-- The request is accepted as input of the function: what it asks for decodes,
    and is valid. -/
structure Accepted : Prop where
  paramDecodes : ∀ t, handle.AsksParam e t → (decodeParam e req (e.new t)).2 = none
  paramValid : ∀ t, handle.AsksParam e t → (validate e (filledParam e req t)).2 = none
  bodyDecodes : ∀ t, handle.AsksBody e t → (decodeBody e req (e.new t)).2 = none
  bodyValid : ∀ t, handle.AsksBody e t → (validate e (filledBody e req t)).2 = none

/-- The request is rejected with an error, that of the first stage it fails at. -/
inductive Rejected : Error → Prop
  | paramDecodes {t : GoType} {err : Error} (ht : handle.AsksParam e t)
      (h : (decodeParam e req (e.new t)).2 = some err) : Rejected err
  | paramValid {t : GoType} {err : Error} (ht : handle.AsksParam e t)
      (hd : (decodeParam e req (e.new t)).2 = none)
      (h : (validate e (filledParam e req t)).2 = some err) : Rejected err
  | bodyDecodes {t : GoType} {err : Error}
      (hd : ∀ t, handle.AsksParam e t → (decodeParam e req (e.new t)).2 = none)
      (hv : ∀ t, handle.AsksParam e t → (validate e (filledParam e req t)).2 = none)
      (ht : handle.AsksBody e t) (h : (decodeBody e req (e.new t)).2 = some err) : Rejected err
  | bodyValid {t : GoType} {err : Error}
      (hd : ∀ t, handle.AsksParam e t → (decodeParam e req (e.new t)).2 = none)
      (hv : ∀ t, handle.AsksParam e t → (validate e (filledParam e req t)).2 = none)
      (ht : handle.AsksBody e t) (hb : (decodeBody e req (e.new t)).2 = none)
      (h : (validate e (filledBody e req t)).2 = some err) : Rejected err

/-- The arguments the function should get: what it asks for, filled and validated. -/
def arguments : List (Option V) :=
  handle.payloads.map fun t =>
    some (validate e (if isParam e t then filledParam e req t else filledBody e req t)).1

/-- The function of a handle only ever runs on accepted input: if it is called
    then the request was accepted, and otherwise the error the request is
    rejected with is all that is written. -/
def Gated (p : RouteHandle V) : Prop :=
  (∀ args, .call args ∈ p.handler e req →
    Accepted e p.handle req ∧ args = arguments e p.handle req) ∧
  (¬ Accepted e p.handle req →
    ∃ err, Rejected e p.handle req err ∧ p.handler e req = [.respWrite none (some err)])

variable {e handle req}

/-- A request that is not accepted is rejected with some error. -/
theorem rejected_of_not_accepted (h : ¬ Accepted e handle req) :
    ∃ err, Rejected e handle req err := by
  by_contra hr
  push Not at hr
  have hd : ∀ t, handle.AsksParam e t → (decodeParam e req (e.new t)).2 = none :=
    fun t ht => Option.eq_none_iff_forall_not_mem.2 fun err herr => hr err (.paramDecodes ht herr)
  have hv : ∀ t, handle.AsksParam e t → (validate e (filledParam e req t)).2 = none :=
    fun t ht => Option.eq_none_iff_forall_not_mem.2 fun err herr =>
      hr err (.paramValid ht (hd t ht) herr)
  have hb : ∀ t, handle.AsksBody e t → (decodeBody e req (e.new t)).2 = none :=
    fun t ht => Option.eq_none_iff_forall_not_mem.2 fun err herr =>
      hr err (.bodyDecodes hd hv ht herr)
  exact h ⟨hd, hv, hb, fun t ht => Option.eq_none_iff_forall_not_mem.2 fun err herr =>
    hr err (.bodyValid hd hv ht (hb t ht) herr)⟩

/-! ### Reading accepted and rejected requests -/

variable {p : RouteHandle V}

theorem readBody_eq {param : Option V} {body body' : V}
    (h : decodeBody e req body = (body', none)) :
    readBody e req param (some body) =
      ((param, some (validate e body').1), (validate e body').2) := by
  simp only [readBody, h]

theorem readEntity_eq {param param' : V} {body : Option V}
    (hd : decodeParam e req param = (param', none)) (hv : (validate e param').2 = none) :
    readEntity e req (some param) body = readBody e req (some (validate e param').1) body := by
  have hv' : validate e param' = ((validate e param').1, none) := Prod.ext rfl hv
  simp only [readEntity, hd]
  rw [hv']

/-- Reading the param of a handle, if it decodes and is valid. -/
theorem readEntity_of_valid (hs : p.Reads e)
    (hd : ∀ t, p.handle.AsksParam e t → (decodeParam e req (e.new t)).2 = none)
    (hv : ∀ t, p.handle.AsksParam e t → (validate e (filledParam e req t)).2 = none)
    (body : Option V) :
    readEntity e req (p.param.map e.new) body =
      readBody e req (p.param.map fun t => (validate e (filledParam e req t)).1) body := by
  cases hp : p.param with
  | none => rfl
  | some t =>
    have ht := (hs.param t).1 hp
    exact readEntity_eq (Prod.ext rfl (hd t ht)) (hv t ht)

/-- What is accepted is read and validated. -/
theorem readEntity_of_accepted (hs : p.Reads e) (h : Accepted e p.handle req) :
    readEntity e req (p.param.map e.new) (p.body.map e.new) =
      ((p.param.map fun t => (validate e (filledParam e req t)).1,
        p.body.map fun t => (validate e (filledBody e req t)).1), none) := by
  rw [readEntity_of_valid hs h.paramDecodes h.paramValid]
  cases hb : p.body with
  | none => rfl
  | some t =>
    have ht := (hs.body t).1 hb
    rw [Option.map_some, readBody_eq (Prod.ext rfl (h.bodyDecodes t ht))]
    exact Prod.ext rfl (h.bodyValid t ht)

/-- The argument read for an argument of the function is the one it asks for. -/
theorem select_requestType (hs : p.Reads e) {t : GoType} (ht : t ∈ p.handle.payloads)
    (f g : GoType → V) :
    (requestType e t).select (p.param.map f, p.body.map g) =
      some (if isParam e t then f t else g t) := by
  rw [requestType]
  split_ifs with hp
  · have : p.param = some t := (hs.param t).2 ⟨ht, hp⟩
    simp [RequestType.select, this]
  · have : p.body = some t := (hs.body t).2 ⟨ht, by simpa using hp⟩
    simp [RequestType.select, this]

/-- On an accepted request the function is called, on what it asks for. -/
theorem handler_of_accepted (hs : p.Reads e) (h : Accepted e p.handle req) :
    p.handler e req =
      .logRequestObject (p.body.map fun t => (validate e (filledBody e req t)).1) ::
      .call (arguments e p.handle req) ::
      respond e (p.handle.call req (arguments e p.handle req)) := by
  have hargs : p.ins.map (RequestType.select
      (p.param.map fun t => (validate e (filledParam e req t)).1,
        p.body.map fun t => (validate e (filledBody e req t)).1)) =
      arguments e p.handle req := by
    rw [hs.ins, List.map_map, arguments]
    refine List.map_congr_left fun t ht => ?_
    rw [Function.comp_apply, select_requestType hs ht]
    split_ifs <;> rfl
  rw [RouteHandle.handler, readEntity_of_accepted hs h]
  dsimp only
  rw [hargs]

/-- On a request that is rejected after its parameters decoded, the error is
    written, and nothing else happens. -/
theorem handler_of_rejected (hs : p.Reads e) {err : Error}
    (hd : ∀ t, p.handle.AsksParam e t → (decodeParam e req (e.new t)).2 = none)
    (h : Rejected e p.handle req err) :
    p.handler e req = [.respWrite none (some err)] := by
  suffices hr : (readEntity e req (p.param.map e.new) (p.body.map e.new)).2 = some err by
    rw [RouteHandle.handler]
    rcases hread : readEntity e req (p.param.map e.new) (p.body.map e.new) with ⟨entity, _⟩
    rw [hread] at hr
    cases hr
    rfl
  cases h with
  | paramDecodes ht h =>
    rw [hd _ ht] at h
    cases h
  | @paramValid t _ ht _ h =>
    rw [(hs.param t).2 ht, Option.map_some]
    have hv : validate e (filledParam e req t) = ((validate e (filledParam e req t)).1, some err) :=
      Prod.ext rfl h
    have hd' : decodeParam e req (e.new t) = (filledParam e req t, none) :=
      Prod.ext rfl (hd t ht)
    simp only [readEntity, hd']
    rw [hv]
  | @bodyDecodes t _ _ hv ht h =>
    rw [readEntity_of_valid hs hd hv, (hs.body t).2 ht, Option.map_some]
    have hb : decodeBody e req (e.new t) = (filledBody e req t, some err) := Prod.ext rfl h
    simp only [readBody, hb]
  | @bodyValid t _ _ hv ht hb h =>
    rw [readEntity_of_valid hs hd hv, (hs.body t).2 ht, Option.map_some,
      readBody_eq (Prod.ext rfl hb)]
    exact h

/-- An error of the parameter codec is lost: the function is called, on what the
    codec left behind and a body that has not been read. -/
theorem handler_of_decodeParam_error (hs : p.Reads e) {t : GoType} {err : Error}
    (ht : p.handle.AsksParam e t) (h : (decodeParam e req (e.new t)).2 = some err) :
    .call (p.ins.map (RequestType.select (some (filledParam e req t), p.body.map e.new))) ∈
      p.handler e req := by
  have hd : decodeParam e req (e.new t) = (filledParam e req t, some err) := Prod.ext rfl h
  rw [RouteHandle.handler, (hs.param t).2 ht, Option.map_some]
  simp [readEntity, hd]

theorem call_not_mem_respond (ret : List V) (args : List (Option V)) :
    .call args ∉ respond e ret := by
  rw [respond.eq_def]
  split <;> simp

/-- The function is called on accepted input only, and the error written
    otherwise, exactly when the parameters of the request decode. -/
theorem gated_iff {handle : Handle V} (h : newRouteHandle e handle = .ok p) (req : RestfulRequest) :
    Gated e req p ↔
      ∀ t, handle.AsksParam e t → (decodeParam e req (e.new t)).2 = none := by
  obtain ⟨rfl, hs⟩ := newRouteHandle_spec e h
  constructor
  · rintro ⟨hcall, -⟩ t ht
    by_contra hd
    obtain ⟨err, hd⟩ := Option.ne_none_iff_exists'.1 hd
    obtain ⟨haccepted, -⟩ := hcall _ (handler_of_decodeParam_error hs ht hd)
    rw [haccepted.paramDecodes t ht] at hd
    cases hd
  · intro hd
    by_cases haccepted : Accepted e p.handle req
    · refine ⟨fun args hargs => ⟨haccepted, ?_⟩, fun h => absurd haccepted h⟩
      rw [handler_of_accepted hs haccepted] at hargs
      simpa [call_not_mem_respond] using hargs
    · obtain ⟨err, hr⟩ := rejected_of_not_accepted haccepted
      have hhandler := handler_of_rejected hs hd hr
      refine ⟨fun args hargs => ?_, fun _ => ⟨err, hr, hhandler⟩⟩
      rw [hhandler] at hargs
      simp at hargs

end Gate

/-! ## A handle that needs a path parameter -/

/-- Values that are texts, and a codec that takes the param from the path. -/
def exampleEnv : Env String where
  decodeParameters ps v := match ps.path.lookup "id" with
    | none => (v, some "id must be set")
    | some id => (id, none)
  validateParamType t :=
    if t.string = "Param" then none else some "schema: can not find param tag from struct"
  supportedMediaTypes := [{ mediaType := "application/json", decode := fun _ v => (v, none) }]
  supportedMediaTypes_ne_nil := List.cons_ne_nil _ _
  serializerInfoForMediaType l _ := l.head?
  parseMediaType := .ok
  new _ := ""
  validator v := some (v, if v = "" then some "id is empty" else none)
  asError v := if v = "" then none else some v
  wrap err msg := msg ++ ": " ++ err

/-- `func(http.ResponseWriter, *http.Request, *Param) error`. -/
def exampleHandle : Handle String where
  name := "get"
  type := .func "func(http.ResponseWriter, *http.Request, *Param) error"
    [.other "http.ResponseWriter", .ptr "*http.Request" (.struct "http.Request"),
      .ptr "*Param" (.struct "Param")] [.other "error"]
  call _ _ := [""]

def exampleRouteHandle : RouteHandle String where
  handle := exampleHandle
  ins := [.param]
  param := some (.struct "Param")

theorem exampleRouteHandle_gated :
    newRouteHandle exampleEnv exampleHandle = .ok exampleRouteHandle ∧
      Gated exampleEnv { pathParameters := AList.singleton "id" "7" } exampleRouteHandle := by
  have hnew : newRouteHandle exampleEnv exampleHandle = .ok exampleRouteHandle := rfl
  exact ⟨hnew, (gated_iff hnew _).2 fun _ _ => rfl⟩

/-- Without the path parameter, the function is called on an empty param, which
    would not have passed its `Validate`, and the request succeeds. -/
theorem exampleRouteHandle_not_gated :
    newRouteHandle exampleEnv exampleHandle = .ok exampleRouteHandle ∧
      exampleRouteHandle.handler exampleEnv {} =
        [.logRequestObject none, .call [some ""], .respWrite none none] ∧
      ¬ Gated exampleEnv {} exampleRouteHandle := by
  refine ⟨rfl, rfl, fun ⟨hcall, _⟩ => ?_⟩
  obtain ⟨haccepted, -⟩ := hcall [some ""] (List.mem_cons_of_mem _ List.mem_cons_self)
  have hasks : exampleHandle.AsksParam exampleEnv (.struct "Param") :=
    ⟨List.mem_cons_self, rfl⟩
  cases haccepted.paramDecodes _ hasks

end Apiserver.Rest
