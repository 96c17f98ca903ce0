import Apiserver.Rest.RouteHandle

/-!
# Building routes

A web service is described by its options and a list of routes
(`pkg/rest/routebuilder.go`). Building it makes a route of go-restful of each,
with the filters that run before its handler:

    opt.Filter > opt.Filters > route.acl > route.filter > route.filters

A filter is an arbitrary `F`, a response writer an arbitrary `W`; what the
route documents about its parameters and results is left out.

* `newRouteBuilder_filters`: the filters of a route that is built;
* `buildRoutes_forall₂`: the routes of a web service, one by one;
* `build_guarded_iff`: every route has the filters it is documented to have
  exactly when none has a filter of its own outside its list, and none names an
  acl while there is no manager.
-/

namespace Apiserver.Rest

open Go

/-- `Acl`. -/
structure Acl (F : Type) where
  filter : F
  scope : String := ""

/-- `AclManager`: its `Get`. -/
abbrev AclManager (F : Type) := String → Except Error (Acl F)

/-- `ApiOutput`, short of the model. -/
structure ApiOutput where
  code : Nat
  message : String

/-- `WsRoute`. -/
structure WsRoute (F W V : Type) where
  acl : String := ""
  method : String := "GET"
  subPath : String := ""
  desc : String := ""
  scope : String := ""
  consume : String := ""
  produce : String := ""
  operation : String := ""
  notes : String := ""
  deprecated : Bool := false
  handle : Option (Handle V) := none
  filter : Option F := none
  filters : List F := []
  extraOutput : List ApiOutput := []
  /-- The tags, unless they are nil. -/
  tags : Option (List String) := none
  respWriter : Option W := none
  inputBody : Option V := none

/-- `WsOption`. -/
structure WsOption (F W V : Type) where
  /-- `RootPath` of the web service. -/
  rootPath : String := ""
  path : String := ""
  aclManager : Option (AclManager F) := none
  filter : Option F := none
  filters : List F := []
  prefixPath : String := ""
  tags : Option (List String) := none
  routes : List (WsRoute F W V) := []
  respWriter : Option W := none

/-- The route a `restful.RouteBuilder` holds. -/
structure Route (F W V : Type) where
  method : String
  path : String
  deprecated : Bool
  /-- The metadata under `SecurityDefinitionKey`. -/
  securityDefinition : Option String
  consumes : Option String
  produces : Option String
  operation : Option String
  notes : Option String
  filters : List F
  returns : List ApiOutput
  /-- The handle, unless it is `noneHandle`. -/
  handle : Option (RouteHandle V)
  /-- The response writer the route has been added to. -/
  respWriter : Option W
  doc : String
  tags : Option (List String)

/-- What building takes from outside the repository, and the defaults. -/
structure BuildEnv (F W V : Type) extends Env V where
  /-- `path.Join`. -/
  joinPath : String → String → String
  /-- `urlencoded.RouteBuilderReads`. -/
  routeBuilderReads : V → Option Error
  /-- The `AclManager` of the default builder. -/
  defaultAclManager : Option (AclManager F)
  defaultRespWriter : W

/-- How building stops. -/
inductive Halt
  | panicked (err : Error)
  | fatal (message : String)

def mimeURLEncoded : String := "application/x-www-form-urlencoded"

/-- A string unless it is empty. -/
def nonEmpty (s : String) : Option String := if s ≠ "" then some s else none

/-- The method of go-restful for the method of a route. -/
def routeMethod (method : String) : Option String :=
  match toUpper method with
  | "GET" | "LIST" => some "GET"
  | "POST" | "CREATE" => some "POST"
  | "PUT" | "UPDATE" => some "PUT"
  | "DELETE" => some "DELETE"
  | _ => none

variable {F W V : Type} (e : BuildEnv F W V) (opt : WsOption F W V)

/-- `Validate`: the defaults. -/
def WsOption.validate : WsOption F W V :=
  { opt with
    rootPath := if opt.path ≠ "" then opt.path else opt.rootPath
    aclManager := opt.aclManager <|> e.defaultAclManager
    respWriter := opt.respWriter <|> some e.defaultRespWriter }

/-- The acl a route names, if there is a manager to ask for it. -/
def WsOption.getAcl (wr : WsRoute F W V) : Except Error (Option (Acl F)) :=
  if wr.acl ≠ "" then
    match opt.aclManager with
    | some get => (get wr.acl).map some
    | none => .ok none
  else .ok none

/-- The first part of `newRouteBuilder`: the filters, and the scope of the acl. -/
def WsOption.addFilters (wr : WsRoute F W V) : Except Halt (WsRoute F W V) :=
  let filters := opt.filter.toList
  let filters := filters ++ opt.filters
  match opt.getAcl wr with
  | .error err => .error (.panicked err)
  | .ok acl =>
    let filters := filters ++ (acl.map Acl.filter).toList
    .ok { wr with filters := filters ++ wr.filters, scope := acl.elim wr.scope Acl.scope }

/-- `buildBody`, of the body of a route if there is one. -/
def buildBody (consume : String) : Option V → Except Halt Unit
  | none => .ok ()
  | some body =>
    if consume = mimeURLEncoded then
      match e.routeBuilderReads body with
      | some err => .error (.panicked err)
      | none => .ok ()
    else .ok ()

/-- `registerHandle`: the handle, and the response writer it is added to. -/
def registerHandle (wr : WsRoute F W V) : Except Halt (Option (RouteHandle V) × Option W) :=
  match wr.handle with
  | none => .ok (none, none)
  | some handle => match newRouteHandle e.toEnv handle with
    | .error err => .error (.fatal ("register " ++ e.joinPath opt.rootPath wr.subPath ++ " err " ++
        e.wrap err "new route handle"))
    | .ok rh => do
      buildBody e wr.consume (wr.inputBody <|> rh.body.map e.new)
      return (some rh, wr.respWriter)

/-- `newRouteBuilder`. -/
def newRouteBuilder (wr : WsRoute F W V) : Except Halt (Route F W V) := do
  let wr := { wr with subPath := opt.prefixPath ++ wr.subPath }
  let wr ← opt.addFilters wr
  let desc := if wr.acl ≠ "" then wr.desc ++ " acl(" ++ wr.acl ++ ")" else wr.desc
  let desc := if wr.scope ≠ "" then desc ++ " scope(" ++ wr.scope ++ ")" else desc
  let wr := { wr with
    desc
    tags := wr.tags <|> opt.tags
    respWriter := wr.respWriter <|> opt.respWriter }
  match routeMethod wr.method with
  | none => throw (.fatal ("register " ++ e.joinPath opt.rootPath wr.subPath ++
      " unsupported method " ++ wr.method))
  | some method =>
    let (handle, respWriter) ← registerHandle e opt wr
    return {
      method
      path := wr.subPath
      deprecated := wr.deprecated
      securityDefinition := nonEmpty wr.scope
      consumes := nonEmpty wr.consume
      produces := nonEmpty wr.produce
      operation := nonEmpty wr.operation
      notes := nonEmpty wr.notes
      filters := wr.filters
      returns := wr.extraOutput
      handle
      respWriter
      doc := wr.desc
      tags := wr.tags }

/-- The loop of `build`. -/
def buildRoutes : List (WsRoute F W V) → Except Halt (List (Route F W V))
  | [] => .ok []
  | wr :: routes => do
    let rb ← newRouteBuilder e opt wr
    return rb :: (← buildRoutes routes)

/-- `Build`. -/
def build : Except Halt (List (Route F W V)) :=
  buildRoutes e (opt.validate e) (opt.validate e).routes

/-! ## The filters of a route -/

variable {e opt}

theorem addFilters_ok {wr wr' : WsRoute F W V} (h : opt.addFilters wr = .ok wr') :
    ∃ acl, opt.getAcl wr = .ok acl ∧ wr'.filters =
      opt.filter.toList ++ opt.filters ++ (acl.map Acl.filter).toList ++ wr.filters := by
  rw [WsOption.addFilters] at h
  dsimp only at h
  split at h
  case h_1 => cases h
  case h_2 acl hacl =>
    cases h
    exact ⟨acl, hacl, rfl⟩

variable {wr : WsRoute F W V}

/-- The filters of a route that is built. -/
theorem newRouteBuilder_filters {rb : Route F W V} (h : newRouteBuilder e opt wr = .ok rb) :
    ∃ acl, opt.getAcl wr = .ok acl ∧ rb.filters =
      opt.filter.toList ++ opt.filters ++ (acl.map Acl.filter).toList ++ wr.filters := by
  rw [newRouteBuilder] at h
  obtain ⟨wr', hwr', h⟩ := bind_eq_ok h
  dsimp only at h
  split at h
  case h_1 => cases h
  case h_2 method _ =>
    obtain ⟨⟨handle, respWriter⟩, -, h⟩ := bind_eq_ok h
    cases h
    have hfilters := addFilters_ok hwr'
    exact hfilters

/-- The routes of a web service are built one by one. -/
theorem buildRoutes_forall₂ {wrs : List (WsRoute F W V)} {rbs : List (Route F W V)}
    (h : buildRoutes e opt wrs = .ok rbs) :
    List.Forall₂ (fun wr rb => newRouteBuilder e opt wr = .ok rb) wrs rbs := by
  induction wrs generalizing rbs with
  | nil =>
    cases h
    exact .nil
  | cons wr wrs ih =>
    rw [buildRoutes] at h
    obtain ⟨rb, hrb, h⟩ := bind_eq_ok h
    obtain ⟨rbs', hrbs', h⟩ := bind_eq_ok h
    cases h
    exact .cons hrb (ih hrbs')

/-! ## The filters it is documented to have -/

variable (opt)

/-- What a route names as its acl: nothing, or an acl the manager knows. -/
inductive WsOption.Names (opt : WsOption F W V) (wr : WsRoute F W V) : Option (Acl F) → Prop
  | nothing : wr.acl = "" → Names opt wr none
  | known {get : AclManager F} {acl : Acl F} : wr.acl ≠ "" → opt.aclManager = some get →
      get wr.acl = .ok acl → Names opt wr (some acl)

/-- The filters of a route, in the order the options document. -/
def WsOption.documentedFilters (wr : WsRoute F W V) (acl : Option (Acl F)) : List F :=
  opt.filter.toList ++ opt.filters ++ (acl.map Acl.filter).toList ++ wr.filter.toList ++ wr.filters

/-- A route is built with the filters it is documented to have. -/
def WsOption.Guarded (wr : WsRoute F W V) (rb : Route F W V) : Prop :=
  ∃ acl, opt.Names wr acl ∧ rb.filters = opt.documentedFilters wr acl

variable {opt}

/-- The ACL that is used is the one the route names. -/
theorem names_of_getAcl {acl : Option (Acl F)} (h : opt.getAcl wr = .ok acl)
    (hm : wr.acl = "" ∨ opt.aclManager.isSome) :
    opt.Names wr acl := by
  rw [WsOption.getAcl] at h
  split at h
  case isFalse hacl =>
    cases h
    exact .nothing (not_not.1 hacl)
  case isTrue hacl =>
    split at h
    case h_1 get hget =>
      obtain ⟨acl, hok, rfl⟩ := map_eq_ok h
      exact .known hacl hget hok
    case h_2 hnone =>
      rw [hnone] at hm
      exact absurd hm (by simp [hacl])

theorem getAcl_of_names {acl : Option (Acl F)} (h : opt.Names wr acl) :
    opt.getAcl wr = .ok acl ∧ (wr.acl = "" ∨ opt.aclManager.isSome) := by
  cases h with
  | nothing hacl => simp [WsOption.getAcl, hacl]
  | known hacl hget hok => simp [WsOption.getAcl, hacl, hget, hok, Except.map]

/-- A route that is built has the filters it is documented to have exactly when
    it has none of its own outside its list, and names an acl only if there is
    a manager: the source never adds `route.Filter`. -/
theorem guarded_iff_of_newRouteBuilder {rb : Route F W V} (h : newRouteBuilder e opt wr = .ok rb) :
    opt.Guarded wr rb ↔ wr.filter = none ∧ (wr.acl = "" ∨ opt.aclManager.isSome) := by
  obtain ⟨acl, hacl, hfilters⟩ := newRouteBuilder_filters h
  constructor
  · rintro ⟨acl', hnames, hdoc⟩
    obtain ⟨hacl', hm⟩ := getAcl_of_names hnames
    rw [hacl] at hacl'
    cases hacl'
    refine ⟨?_, hm⟩
    -- Both lists end in `route.Filters`; what is before them has to agree.
    rw [hfilters, WsOption.documentedFilters, List.append_left_inj] at hdoc
    cases hf : wr.filter with
    | none => rfl
    | some x =>
      rw [hf] at hdoc
      exact absurd hdoc.symm (by simp)
  · rintro ⟨hf, hm⟩
    refine ⟨acl, names_of_getAcl hacl hm, ?_⟩
    rw [hfilters, WsOption.documentedFilters, hf, Option.toList_none, List.append_nil]

/-- Every route of a web service has the filters it is documented to have
    exactly when none has a filter of its own outside its list, and none names
    an acl while there is no manager. -/
theorem build_guarded_iff {opt : WsOption F W V} {rbs : List (Route F W V)}
    (h : build e opt = .ok rbs) :
    List.Forall₂ (opt.validate e).Guarded opt.routes rbs ↔
      ∀ wr ∈ opt.routes,
        wr.filter = none ∧ (wr.acl = "" ∨ (opt.validate e).aclManager.isSome) := by
  have hbuilt := buildRoutes_forall₂ h
  change List.Forall₂ _ opt.routes rbs at hbuilt
  clear h
  generalize opt.routes = wrs at hbuilt ⊢
  induction hbuilt with
  | nil => simp
  | cons hrb _ ih =>
    rw [List.forall₂_cons, List.forall_mem_cons, guarded_iff_of_newRouteBuilder hrb]
    exact and_congr_right' ih

/-- Filters and response writers are named, and every function is a handle. -/
def exampleBuildEnv : BuildEnv String String String where
  toEnv := exampleEnv
  joinPath a b := a ++ b
  routeBuilderReads _ := none
  defaultAclManager := some fun name =>
    if name = "read" then .ok { filter := "acl read", scope := "read" } else .error "no such acl"
  defaultRespWriter := "default"

/-- A service with filters, and routes with an acl and a list of filters. -/
def exampleOption (filter : Option String) : WsOption String String String where
  filter := some "tx"
  filters := ["log"]
  routes := [{ acl := "read", subPath := "/a", filter, filters := ["quota"] },
    { method := "POST", subPath := "/b" }]

theorem exampleOption_guarded : ∃ rbs, build exampleBuildEnv (exampleOption none) = .ok rbs ∧
    List.Forall₂ ((exampleOption none).validate exampleBuildEnv).Guarded
      (exampleOption none).routes rbs := by
  refine ⟨_, rfl, (build_guarded_iff rfl).2 ?_⟩
  intro wr hwr
  simp only [exampleOption, List.mem_cons, List.not_mem_nil, or_false] at hwr
  rcases hwr with rfl | rfl
  · exact ⟨rfl, .inr rfl⟩
  · exact ⟨rfl, .inl rfl⟩

/-- A filter of a route is dropped. -/
theorem exampleOption_not_guarded : ∃ rbs,
    build exampleBuildEnv (exampleOption (some "audit")) = .ok rbs ∧
    rbs.map Route.filters = [["tx", "log", "acl read", "quota"], ["tx", "log"]] ∧
    ¬ List.Forall₂ ((exampleOption (some "audit")).validate exampleBuildEnv).Guarded
      (exampleOption (some "audit")).routes rbs := by
  refine ⟨_, rfl, rfl, ?_⟩
  intro h
  obtain ⟨⟨acl, -, hfilters⟩, -⟩ := List.forall₂_cons.1 h
  -- However the acl is read, `audit` would be among the filters.
  have hmem : "audit" ∈ ["tx", "log", "acl read", "quota"] := by
    change ["tx", "log", "acl read", "quota"] = _ at hfilters
    rw [hfilters]
    simp [WsOption.documentedFilters, exampleOption]
  exact absurd hmem (by decide)

end Apiserver.Rest
