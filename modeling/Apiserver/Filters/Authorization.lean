import Apiserver.Abac.Policy
import Apiserver.Filters.Handler

/-!
# The authorization filter

The attributes of a request are made from the user and the request info in its
context, and the authorizer decides on them (`pkg/filters/authorization.go`).
The same attributes are given to the audit policy.

* `withAuthorization_mediation`: the inner handler is called, on the same
  request, exactly when the authorizer allows the attributes;
* `getAuthorizerAttributes_apiGroup`: the API group does not make it into the
  attributes;
* `groupTakesPart_iff`: so policies that name a group treat a request for a
  resource as if it were in the group with the empty name.
-/

namespace Apiserver

open Go

/-- `GetAuthorizerAttributes`. -/
def getAuthorizerAttributes (ctx : Context) : Except Error Attributes :=
  match ctx.requestInfo with
  | none => .error "no RequestInfo found in the context"
  -- The assignments of the API group and version are commented out in the source.
  | some info => .ok
    { user := ctx.user
      resourceRequest := info.isResourceRequest
      path := info.path
      verb := info.verb
      resource := info.resource
      subresource := info.subresource
      ns := info.ns
      name := info.name }

variable {σ : Type}

/-- An authorizer whose answers may depend on the state of the server. -/
abbrev AuthorizerM (σ : Type) := Attributes → σ → Answer × σ

/-- `WithAuthorization`; without an authorizer it does nothing. -/
def withAuthorization (authz : Option (AuthorizerM σ)) : Filter σ :=
  match authz with
  | none => id
  | some authz => fun handler req s => match getAuthorizerAttributes req.ctx with
    | .error err => { trace := [.respond (.internalError err)], state := s }
    | .ok a =>
      let (answer, s) := authz a s
      -- The decision comes before the error, as RBAC may allow a request in spite of one.
      if answer.decision = .allow then (handler req s).after [.authorize a answer]
      else match answer.err with
        | some err => { trace := [.authorize a answer, .respond (.internalError err)], state := s }
        | none =>
          { trace := [.authorize a answer, .respond (.forbidden a answer.reason)], state := s }

/-- Nothing is decided without attributes. With them, the authorizer is asked,
    and the inner handler is called if it allows the request. -/
theorem withAuthorization_mediation (authz : AuthorizerM σ) (handler : Handler σ)
    (req : HttpRequest) (s : σ) :
    mediation (withAuthorization (some authz) handler req s).trace = [] ∨
    ∃ a answer, getAuthorizerAttributes req.ctx = .ok a ∧
      ((answer.decision = .allow ∧
          ∃ s', mediation (withAuthorization (some authz) handler req s).trace =
            .authorize a answer :: mediation (handler req s').trace) ∨
        (answer.decision ≠ .allow ∧
          mediation (withAuthorization (some authz) handler req s).trace =
            [.authorize a answer])) := by
  rw [withAuthorization]
  dsimp only
  split
  · exact .inl rfl
  case h_2 a ha =>
    refine .inr ⟨a, (authz a s).1, ha, ?_⟩
    split
    case isTrue hdec => exact .inl ⟨hdec, _, rfl⟩
    case isFalse hdec =>
      refine .inr ⟨hdec, ?_⟩
      split <;> rfl

/-! ## The API group of a request -/

/-- The API group in the path of a request whose prefix has groups: the second part. -/
def urlGroup (path : String) : String := (splitPath path).getD 1 ""

/-- The API group takes part in the decisions on a request with the attributes
    `a`: a policy for a group matches when the group is that of the request and
    its other fields match, and a rule with entries when one of them has that
    group, and the resource and the name. -/
structure GroupTakesPart (group : String) (a : Attributes) : Prop where
  abac : ∀ p : Abac.Policy, p.spec.apiGroup ≠ "*" →
    (Abac.policyMatches p a = true ↔ p.spec.apiGroup = group ∧
      Abac.policyMatches { p with spec := { p.spec with apiGroup := "*" } } a = true)
  audit : ∀ r : Audit.PolicyRule, r.resources ≠ [] →
    (Audit.ruleMatches r a = true ↔ Audit.OthersMatch r a ∧
      ∃ gr ∈ r.resources, gr.group = group ∧ Audit.entryMatches a gr = true)

theorem urlGroup_eq {f : RequestInfoFactory} {req : Request} {info : RequestInfo}
    {err : Option Error} (h : f.newRequestInfo req = .returned info err)
    (hr : info.isResourceRequest = true) (hg : info.apiPrefix ∉ f.grouplessAPIPrefixes) :
    urlGroup req.path = info.apiGroup := by
  obtain ⟨rest, hpath⟩ := RequestInfoFactory.newRequestInfo_of_resource h hr
  rw [urlGroup, hpath, if_neg hg]
  rfl

theorem getAuthorizerAttributes_apiGroup {ctx : Context} {a : Attributes}
    (h : getAuthorizerAttributes ctx = .ok a) : a.apiGroup = "" := by
  rw [getAuthorizerAttributes] at h
  split at h
  · cases h
  · cases h
    rfl

theorem getAuthorizerAttributes_resourceRequest {ctx : Context} {a : Attributes}
    {info : RequestInfo} (hctx : ctx.requestInfo = some info)
    (h : getAuthorizerAttributes ctx = .ok a) : a.resourceRequest = info.isResourceRequest := by
  rw [getAuthorizerAttributes, hctx] at h
  cases h
  rfl

/-- A policy for a group matches what it would match for any group, if the group
    is that of the attributes. -/
theorem policyMatches_of_apiGroup {p : Abac.Policy} {a : Attributes} (hp : p.spec.apiGroup ≠ "*")
    (ha : a.resourceRequest = true) :
    Abac.policyMatches p a = true ↔ p.spec.apiGroup = a.apiGroup ∧
      Abac.policyMatches { p with spec := { p.spec with apiGroup := "*" } } a = true := by
  have hsubject : Abac.subjectMatches { p with spec := { p.spec with apiGroup := "*" } } a.user =
    Abac.subjectMatches p a.user := rfl
  have hverb : Abac.verbMatches { p with spec := { p.spec with apiGroup := "*" } } a =
    Abac.verbMatches p a := rfl
  rw [Abac.policyMatches, Abac.policyMatches, hsubject, hverb]
  simp only [Abac.resourceMatches, Abac.nonResourceMatches, ha]
  by_cases hg : p.spec.apiGroup = a.apiGroup <;> simp [hp, hg]

/-- For a resource request, the API group takes part in the decisions exactly
    when the one in the URL is empty. -/
theorem groupTakesPart_iff {f : RequestInfoFactory} {req : Request} {info : RequestInfo}
    (h : f.newRequestInfo req = .returned info none) (hr : info.isResourceRequest = true)
    (hg : info.apiPrefix ∉ f.grouplessAPIPrefixes) {ctx : Context}
    (hctx : ctx.requestInfo = some info) {a : Attributes}
    (ha : getAuthorizerAttributes ctx = .ok a) :
    urlGroup req.path = info.apiGroup ∧
      (GroupTakesPart (urlGroup req.path) a ↔ urlGroup req.path = "") := by
  refine ⟨urlGroup_eq h hr hg, ?_⟩
  have hgroup := getAuthorizerAttributes_apiGroup ha
  have hres : a.resourceRequest = true :=
    (getAuthorizerAttributes_resourceRequest hctx ha).trans hr
  constructor
  · intro hpart
    -- A rule for the empty group selects the request, whatever its group.
    have hrule : Audit.ruleMatches { resources := [{}] } a = true :=
      (Audit.ruleMatches_of_resources (List.cons_ne_nil _ _) hres).2
        ⟨⟨rfl, rfl, rfl⟩, {}, List.mem_cons_self, hgroup.symm, rfl⟩
    obtain ⟨-, gr, hmem, hgr, -⟩ := (hpart.audit _ (List.cons_ne_nil _ _)).1 hrule
    rw [List.mem_singleton.1 hmem] at hgr
    exact hgr.symm
  · intro hempty
    rw [hempty, ← hgroup]
    exact ⟨fun p hp => policyMatches_of_apiGroup hp hres,
      fun r hr => Audit.ruleMatches_of_resources hr hres⟩

/-- Prefixes as the server has them by default, and no list options. -/
def exampleFactory : RequestInfoFactory where
  apiPrefixes := ["api", "apis"]
  grouplessAPIPrefixes := ["api"]
  decodeListOptions _ := .ok {}
  parseSelector _ := (none, none)
  isValidPathSegmentName _ := []
  showURL req := req.path

/-- The request info of a list of deployments in a group. -/
def exampleInfo (group path : String) : RequestInfo where
  isResourceRequest := true
  path := path
  verb := "list"
  apiPrefix := "apis"
  apiGroup := group
  apiVersion := "v1"
  resource := "deployments"
  parts := ["deployments"]

theorem groupTakesPart_empty_group :
    exampleFactory.newRequestInfo { path := "/apis//v1/deployments" } =
      .returned (exampleInfo "" "/apis//v1/deployments") none ∧
    ∀ a, getAuthorizerAttributes
        { requestInfo := some (exampleInfo "" "/apis//v1/deployments") } = .ok a →
      GroupTakesPart (urlGroup "/apis//v1/deployments") a := by
  have hinfo : exampleFactory.newRequestInfo { path := "/apis//v1/deployments" } =
      .returned (exampleInfo "" "/apis//v1/deployments") none := rfl
  have hless : (exampleInfo "" "/apis//v1/deployments").apiPrefix ∉
      exampleFactory.grouplessAPIPrefixes := by decide
  refine ⟨hinfo, fun a ha => ?_⟩
  exact (groupTakesPart_iff hinfo rfl hless rfl ha).2.2 rfl

/-- A policy for the group `apps` does not match a request for deployments in the
    group `apps`, and one for the group with the empty name does. -/
theorem not_groupTakesPart_apps :
    exampleFactory.newRequestInfo { path := "/apis/apps/v1/deployments" } =
      .returned (exampleInfo "apps" "/apis/apps/v1/deployments") none ∧
    ∃ a, getAuthorizerAttributes
        { user := some { name := "alice" }
          requestInfo := some (exampleInfo "apps" "/apis/apps/v1/deployments") } = .ok a ∧
      Abac.policyMatches { spec := { user := "alice", apiGroup := "apps", resource := "*" } } a =
        false ∧
      Abac.policyMatches { spec := { user := "alice", apiGroup := "", resource := "*" } } a =
        true ∧
      ¬ GroupTakesPart "apps" a := by
  refine ⟨rfl, _, rfl, by decide, by decide, fun hpart => ?_⟩
  have hmatches := hpart.abac { spec := { user := "alice", apiGroup := "", resource := "*" } }
    (by decide)
  exact absurd (hmatches.1 (by decide)).1 (by decide)

end Apiserver
