import Apiserver.Authentication.Module
import Apiserver.Filters.Authentication
import Apiserver.Filters.Authorization
import Apiserver.Rbac.Rule

/-!
# Requests without a user

Without an authenticator the context of a request holds no user, and the
attributes that are made of it have a nil one. The authorizer goes through the
bindings as it does for any other user (`plugin/authorizer/rbac`); here, the
functions of the resolver and the authorizer are given a user that may be nil,
and return nothing where they ask a nil user for its name or its groups.

* `authorize_of_user`: for a user that is there, this is the authorizer;
* `visitRulesFor_nil`: without a user no rule is ever visited, and what happens
  only depends on the subjects of the bindings (`Dereferences`);
* `refused_iff_not_dereferences`: a request without a user is refused exactly when
  no binding has a subject that is compared with the user, and denials are not
  logged.
-/

namespace Apiserver.Rbac.Nilable

variable (d : Deps) (r : DefaultRuleResolver) (user : Option UserInfo)

open DefaultRuleResolver (Source Visited Visitor RuleAccumulator AuthorizingVisitor)

/-- `appliesToUser`. -/
def appliesToUser (subject : Subject) (ns : String) : Option Bool :=
  if subject.kind = userKind then user.map fun user => user.name == subject.name
  else if subject.kind = groupKind then user.map fun user => user.groups.contains subject.name
  else if subject.kind = serviceAccountKind then
    let saNamespace := if subject.ns.isEmpty then ns else subject.ns
    if saNamespace.isEmpty then some false
    else user.map fun user => ServiceAccount.matchesUsername saNamespace subject.name user.name
  else some false

/-- `appliesTo`, with the subject at the index. -/
def appliesTo (ns : String) : List Subject → Option (Option Subject)
  | [] => some none
  | subject :: subjects => match appliesToUser user subject ns with
    | none => none
    | some true => some (some subject)
    | some false => appliesTo ns subjects

variable {σ : Type}

/-- The body of the two loops of `VisitRulesFor`. -/
def visitBinding (subjects : List Subject) (roleRef : RoleRef) (ns : String)
    (source : Subject → Source) (visitor : Visitor σ) (s : σ) : Option (Bool × σ) :=
  match appliesTo user ns subjects with
  | none => none
  | some none => some (true, s)
  | some (some subject) => match r.getRoleReferenceRules d roleRef ns with
    | .error err => some (visitor s (.error err))
    | .ok rules =>
      some (Go.visit (fun s rule => visitor s (.rule (source subject) rule)) rules s)

/-- The two halves of `VisitRulesFor`, for bindings of either type. -/
def visitBindings {β : Type} (subjects : β → List Subject) (roleRef : β → RoleRef)
    (source : β → Subject → Source) (ns : String) (list : Except Error (List β))
    (visitor : Visitor σ) (s : σ) : Option (Bool × σ) :=
  match list with
  | .error err => some (visitor s (.error err))
  | .ok bindings => Go.visitOption
      (fun s b => visitBinding d r user (subjects b) (roleRef b) ns (source b) visitor s)
      bindings s

/-- The first half of `VisitRulesFor`: the cluster role bindings. -/
def visitClusterRoleBindings (visitor : Visitor σ) (s : σ) : Option (Bool × σ) :=
  visitBindings d r user ClusterRoleBinding.subjects ClusterRoleBinding.roleRef
    .clusterRoleBinding "" r.listClusterRoleBindings visitor s

/-- The second half of `VisitRulesFor`: the role bindings. -/
def visitRoleBindings (ns : String) (visitor : Visitor σ) (s : σ) : Option (Bool × σ) :=
  visitBindings d r user RoleBinding.subjects RoleBinding.roleRef .roleBinding ns
    (r.listRoleBindings ns) visitor s

/-- `VisitRulesFor`: the variables of the visitor at the end. -/
def visitRulesFor (ns : String) (visitor : Visitor σ) (s : σ) : Option σ :=
  match visitClusterRoleBindings d r user visitor s with
  | none => none
  | some (false, s) => some s
  | some (true, s) =>
    if ns.isEmpty then some s else (visitRoleBindings d r user ns visitor s).map Prod.snd

/-- `Authorize`. With a verbosity of 5 or more (`verbose`) a denial is logged,
    with the name and the groups of the user. -/
def authorize (verbose : Bool) (a : Attributes) : Option Answer :=
  match visitRulesFor d r a.user a.ns (AuthorizingVisitor.visit d a) {} with
  | none => none
  | some visitor =>
    if visitor.allowed then some { decision := .allow, reason := visitor.reason }
    else if verbose && a.user.isNone then none
    else some
      { decision := .noOpinion
        reason := match d.newAggregate visitor.errors with
          | none => ""
          | some err => "RBAC: " ++ err }

/-- `WithAuthorization`, with an authorizer that may panic. -/
def withAuthorization (authz : Attributes → σ → Option Answer × σ) : Filter σ :=
  fun handler req s => match getAuthorizerAttributes req.ctx with
    | .error err => { trace := [.respond (.internalError err)], state := s }
    | .ok a => match authz a s with
      | (none, s) => { trace := [], panicked := true, state := s }
      | (some answer, s) =>
        if answer.decision = .allow then (handler req s).after [.authorize a answer]
        else match answer.err with
          | some err =>
            { trace := [.authorize a answer, .respond (.internalError err)], state := s }
          | none =>
            { trace := [.authorize a answer, .respond (.forbidden a answer.reason)], state := s }

/-! ## Users that are there -/

variable {d r}

theorem appliesToUser_some (user : UserInfo) (subject : Subject) (ns : String) :
    appliesToUser (some user) subject ns = some (Rbac.appliesToUser user subject ns) := by
  rw [appliesToUser, Rbac.appliesToUser]
  dsimp only [Option.map_some]
  split_ifs <;> rfl

/-- For a user that is there, subjects are compared as by the resolver. -/
theorem appliesTo_some (user : UserInfo) (subjects : List Subject) (ns : String) :
    appliesTo (some user) ns subjects =
      some ((Rbac.appliesTo user subjects ns).map subjects.get) := by
  induction subjects with
  | nil => rfl
  | cons subject subjects ih =>
    rw [appliesTo, appliesToUser_some, Rbac.appliesTo, List.findFinIdx?_cons]
    cases Rbac.appliesToUser user subject ns with
    | true => rfl
    | false =>
      dsimp only
      rw [ih, Rbac.appliesTo, if_neg Bool.false_ne_true, Option.map_map]
      rfl

theorem visitBinding_some (user : UserInfo) (subjects : List Subject) (roleRef : RoleRef)
    (ns : String) (source : Subject → Source) (visitor : Visitor σ) (s : σ) :
    visitBinding d r (some user) subjects roleRef ns source visitor s =
      some (r.visitBinding d user subjects roleRef ns source visitor s) := by
  rw [visitBinding, appliesTo_some, DefaultRuleResolver.visitBinding]
  cases Rbac.appliesTo user subjects ns with
  | none => rfl
  | some i => cases r.getRoleReferenceRules d roleRef ns <;> rfl

/-- For a user that is there, bindings are visited as by the resolver. -/
theorem visitBindings_some {β : Type} (user : UserInfo) (subjects : β → List Subject)
    (roleRef : β → RoleRef) (source : β → Subject → Source) (ns : String) (bindings : List β)
    (visitor : Visitor σ) (s : σ) :
    visitBindings d r (some user) subjects roleRef source ns (.ok bindings) visitor s =
      some (Go.visit (fun s b =>
        r.visitBinding d user (subjects b) (roleRef b) ns (source b) visitor s) bindings s) :=
  Go.visitOption_eq_some _ (fun s _ => visitBinding_some user _ _ _ _ visitor s) bindings s

/-- For a user that is there, rules are visited as by the resolver. -/
theorem visitRulesFor_some (user : UserInfo) (ns : String) (visitor : Visitor σ) (s : σ) :
    visitRulesFor d r (some user) ns visitor s = some (r.visitRulesFor d user ns visitor s) := by
  have hcluster : ∀ s, visitClusterRoleBindings d r (some user) visitor s =
      some (r.visitClusterRoleBindings d user visitor s) := by
    intro s
    rw [visitClusterRoleBindings, DefaultRuleResolver.visitClusterRoleBindings]
    cases r.listClusterRoleBindings with
    | error err => rfl
    | ok bindings => exact visitBindings_some ..
  have hrole : ∀ s, visitRoleBindings d r (some user) ns visitor s =
      some (r.visitRoleBindings d user ns visitor s) := by
    intro s
    rw [visitRoleBindings, DefaultRuleResolver.visitRoleBindings]
    cases r.listRoleBindings ns with
    | error err => rfl
    | ok bindings => exact visitBindings_some ..
  rw [visitRulesFor, DefaultRuleResolver.visitRulesFor, hcluster]
  rcases r.visitClusterRoleBindings d user visitor s with ⟨_ | _, s'⟩
  · rfl
  · dsimp only [Go.andThen_true]
    rw [hrole]
    split_ifs <;> rfl

/-- For a user that is there, this is the authorizer. -/
theorem authorize_of_user {a : Attributes} {user : UserInfo} (h : a.user = some user)
    (verbose : Bool) : authorize d r verbose a = some (r.authorize d user a) := by
  rw [authorize, h, visitRulesFor_some, DefaultRuleResolver.authorize]
  dsimp only
  split_ifs with hallowed hverbose
  · rfl
  · simp at hverbose
  · rfl

/-! ## Nil users -/

/-- Whether a subject, read in a namespace, is compared with the user. -/
def Compares (ns : String) (subject : Subject) : Prop :=
  subject.kind = userKind ∨ subject.kind = groupKind ∨
    (subject.kind = serviceAccountKind ∧ (subject.ns ≠ "" ∨ ns ≠ ""))

instance (ns : String) : DecidablePred (Compares ns) := fun subject =>
  inferInstanceAs (Decidable (subject.kind = userKind ∨ subject.kind = groupKind ∨
    (subject.kind = serviceAccountKind ∧ (subject.ns ≠ "" ∨ ns ≠ ""))))

variable (r) in
/-- A binding that is looked at for a request in `ns` has a subject that is
    compared with the user. -/
def Dereferences (ns : String) : Prop :=
  (∃ bindings, r.listClusterRoleBindings = .ok bindings ∧
    ∃ b ∈ bindings, ∃ s ∈ b.subjects, Compares "" s) ∨
  (ns ≠ "" ∧ ∃ bindings, r.listRoleBindings ns = .ok bindings ∧
    ∃ b ∈ bindings, ∃ s ∈ b.subjects, Compares ns s)

/-- Without a user, comparing a subject with it panics. -/
theorem appliesToUser_nil (subject : Subject) (ns : String) :
    appliesToUser none subject ns = if Compares ns subject then none else some false := by
  have hu : serviceAccountKind ≠ userKind := by decide
  have hg : serviceAccountKind ≠ groupKind := by decide
  rw [appliesToUser]
  by_cases huser : subject.kind = userKind
  · simp [Compares, huser]
  by_cases hgroup : subject.kind = groupKind
  · simp [Compares, hgroup]
  by_cases hsa : subject.kind = serviceAccountKind
  · by_cases hs : subject.ns = "" <;> by_cases hns : ns = "" <;>
      simp [Compares, hsa, hs, hns, hu, hg]
  · simp [Compares, huser, hgroup, hsa]

theorem appliesTo_nil (subjects : List Subject) (ns : String) :
    appliesTo none ns subjects =
      if ∃ s ∈ subjects, Compares ns s then none else some none := by
  induction subjects with
  | nil => simp [appliesTo]
  | cons subject subjects ih =>
    rw [appliesTo, appliesToUser_nil]
    by_cases hc : Compares ns subject
    · simp [hc]
    · simp [hc, ih]

theorem visitBinding_nil (subjects : List Subject) (roleRef : RoleRef) (ns : String)
    (source : Subject → Source) (visitor : Visitor σ) (s : σ) :
    visitBinding d r none subjects roleRef ns source visitor s =
      if ∃ s ∈ subjects, Compares ns s then none else some (true, s) := by
  rw [visitBinding, appliesTo_nil]
  by_cases hc : ∃ s ∈ subjects, Compares ns s
  · rw [if_pos hc, if_pos hc]
  · rw [if_neg hc, if_neg hc]

/-- The error of a list. -/
def listError {β : Type} : Except Error (List β) → List Error
  | .error err => [err]
  | .ok _ => []

variable (r) in
/-- What is visited without a user: the errors of the lists. -/
def listErrors (ns : String) : List Error :=
  listError r.listClusterRoleBindings ++
    if ns.isEmpty then [] else listError (r.listRoleBindings ns)

variable (d r) in
/-- Either half of `VisitRulesFor`, without a user. -/
theorem visitBindings_nil {β : Type} (subjects : β → List Subject) (roleRef : β → RoleRef)
    (source : β → Subject → Source) (ns : String) (list : Except Error (List β))
    {visitor : Visitor σ} (hv : ∀ s err, (visitor s (.error err)).1 = true) (s : σ) :
    ((∃ bindings, list = .ok bindings ∧ ∃ b ∈ bindings, ∃ s ∈ subjects b, Compares ns s) ∧
      visitBindings d r none subjects roleRef source ns list visitor s = none) ∨
    ((¬ ∃ bindings, list = .ok bindings ∧ ∃ b ∈ bindings, ∃ s ∈ subjects b, Compares ns s) ∧
      visitBindings d r none subjects roleRef source ns list visitor s =
        some (true, (listError list).foldl (fun s err => (visitor s (.error err)).2) s)) := by
  cases list with
  | error err =>
    refine .inr ⟨fun ⟨_, h, _⟩ => (nomatch h), ?_⟩
    exact congrArg some (Prod.ext (hv s err) rfl)
  | ok bindings =>
    rw [visitBindings, Go.visitOption_of_skip (P := fun b => ∃ s ∈ subjects b, Compares ns s)
      fun s b => visitBinding_nil (subjects b) (roleRef b) ns (source b) visitor s]
    by_cases hc : ∃ b ∈ bindings, ∃ s ∈ subjects b, Compares ns s
    · exact .inl ⟨⟨bindings, rfl, hc⟩, if_pos hc⟩
    · refine .inr ⟨?_, if_neg hc⟩
      rintro ⟨_, hb, hc'⟩
      cases hb
      exact hc hc'

variable (d r) in
/-- Without a user no rule is visited. The bindings are gone through to the end,
    unless one of them has a subject that is compared with the user. -/
theorem visitRulesFor_nil {visitor : Visitor σ}
    (hv : ∀ s err, (visitor s (.error err)).1 = true) (ns : String) (s : σ) :
    (Dereferences r ns ∧ visitRulesFor d r none ns visitor s = none) ∨
    (¬ Dereferences r ns ∧ visitRulesFor d r none ns visitor s =
      some ((listErrors r ns).foldl (fun s err => (visitor s (.error err)).2) s)) := by
  have hcluster := visitBindings_nil d r ClusterRoleBinding.subjects ClusterRoleBinding.roleRef
    Source.clusterRoleBinding "" r.listClusterRoleBindings hv s
  have hrole := visitBindings_nil d r RoleBinding.subjects RoleBinding.roleRef
    Source.roleBinding ns (r.listRoleBindings ns) hv
  rw [visitRulesFor, visitClusterRoleBindings, Dereferences, listErrors]
  -- The role bindings are only gone through if the cluster role bindings were.
  rcases hcluster with ⟨hc, heq⟩ | ⟨hc, heq⟩
  · rw [heq]
    exact .inl ⟨.inl hc, rfl⟩
  rw [heq]
  dsimp only
  by_cases hns : ns = ""
  · subst hns
    refine .inr ⟨by simpa using hc, ?_⟩
    simp
  · rw [if_neg (by simpa using hns), if_neg (by simpa using hns), visitRoleBindings,
      List.foldl_append]
    rcases hrole ((listError r.listClusterRoleBindings).foldl
      (fun s err => (visitor s (.error err)).2) s) with ⟨hr, heq'⟩ | ⟨hr, heq'⟩
    · rw [heq']
      exact .inl ⟨.inr ⟨hns, hr⟩, rfl⟩
    · rw [heq']
      exact .inr ⟨not_or.2 ⟨hc, fun h => hr h.2⟩, rfl⟩

theorem foldl_authorizing (a : Attributes) (errors : List Error) (v : AuthorizingVisitor) :
    errors.foldl (fun v err => (AuthorizingVisitor.visit d a v (.error err)).2) v =
      { v with errors := v.errors ++ errors } := by
  induction errors generalizing v with
  | nil => simp
  | cons err errors ih =>
    rw [List.foldl_cons, ih]
    simp [AuthorizingVisitor.visit]

theorem foldl_accumulating (errors : List Error) (acc : RuleAccumulator) :
    (errors.foldl (fun acc err => (RuleAccumulator.visit acc (.error err)).2) acc).rules =
      acc.rules := by
  induction errors generalizing acc with
  | nil => rfl
  | cons err errors ih => rw [List.foldl_cons, ih, RuleAccumulator.visit]

/-- Without a user the authorizer panics or has no opinion. -/
theorem authorize_nil {a : Attributes} (ha : a.user = none) (verbose : Bool) :
    ((verbose = false ∧ ¬ Dereferences r a.ns) ∧
      ∃ reason, authorize d r verbose a = some { decision := .noOpinion, reason }) ∨
    (¬ (verbose = false ∧ ¬ Dereferences r a.ns) ∧ authorize d r verbose a = none) := by
  rw [authorize, ha]
  have hv : ∀ v err, (AuthorizingVisitor.visit d a v (.error err)).1 = true := fun _ _ => rfl
  rcases visitRulesFor_nil d r hv a.ns {} with ⟨hd, heq⟩ | ⟨hd, heq⟩
  · rw [heq]
    exact .inr ⟨fun h => h.2 hd, rfl⟩
  · rw [heq, foldl_authorizing]
    cases verbose with
    | true => exact .inr ⟨fun h => absurd h.1 (by decide), rfl⟩
    | false => exact .inl ⟨⟨rfl, hd⟩, _, rfl⟩

/-! ## The filters -/

/-- A request is served as one the authorizer has no opinion on, so that it is
    forbidden, and no rule has been visited. -/
def Refused (d : Deps) (r : DefaultRuleResolver) (filter : Filter σ) (handler : Handler σ)
    (req : HttpRequest) (s : σ) : Prop :=
  ∃ a reason, getAuthorizerAttributes req.ctx = .ok a ∧
    filter handler req s =
      { trace := [.authorize a { decision := .noOpinion, reason },
          .respond (.forbidden a reason)], state := s } ∧
    ∃ acc, visitRulesFor d r a.user a.ns RuleAccumulator.visit {} = some acc ∧ acc.rules = []

/-- A request without a user is refused exactly when no binding that is looked at
    has a subject that is compared with the user, and denials are not logged. -/
theorem refused_iff_not_dereferences (d : Deps) (r : DefaultRuleResolver) (verbose : Bool)
    (failed : Handler σ) (apiAuds : List String) (keep : Bool) (handler : Handler σ)
    {req : HttpRequest} {info : RequestInfo} (huser : req.ctx.user = none)
    (hinfo : req.ctx.requestInfo = some info) (s : σ) :
    Refused d r (withAuthentication none failed apiAuds keep ∘
        withAuthorization fun a s => (authorize d r verbose a, s)) handler req s ↔
      verbose = false ∧ ¬ Dereferences r info.ns := by
  obtain ⟨a, hattr, hauser, hns⟩ : ∃ a, getAuthorizerAttributes req.ctx = .ok a ∧
      a.user = none ∧ a.ns = info.ns := by
    rw [getAuthorizerAttributes, hinfo]
    exact ⟨_, rfl, huser, rfl⟩
  have hserved : (withAuthentication none failed apiAuds keep ∘
      withAuthorization fun a s => (authorize d r verbose a, s)) handler req s =
      withAuthorization (fun a s => (authorize d r verbose a, s)) handler req s := rfl
  rw [Refused, hserved, withAuthorization, hattr, ← hns]
  dsimp only
  rcases authorize_nil (d := d) (r := r) hauser verbose with ⟨hcond, reason, hauth⟩ | ⟨hcond, hauth⟩
  · rw [hauth]
    refine iff_of_true ⟨a, reason, rfl, rfl, ?_⟩ hcond
    have hv : ∀ acc err, (RuleAccumulator.visit acc (.error err)).1 = true := fun _ _ => rfl
    rw [hauser]
    rcases visitRulesFor_nil d r hv a.ns {} with ⟨hd, -⟩ | ⟨-, heq⟩
    · exact absurd hd hcond.2
    · exact ⟨_, heq, foldl_accumulating _ _⟩
  · rw [hauth]
    refine iff_of_false ?_ hcond
    rintro ⟨a', reason, -, h, -⟩
    cases h

/-- Everything is bound to a user, or to a service account of no namespace in
    particular. -/
def exampleBindings (kind : String) : DefaultRuleResolver where
  getRole _ _ := .error "not found"
  listRoleBindings _ := .ok []
  getClusterRole _ := .ok { name := "admin", rules := [allowAll] }
  listClusterRoleBindings := .ok
    [{ name := "admins"
       subjects := [{ kind, name := "admin" }]
       roleRef := { kind := "ClusterRole", name := "admin" } }]

/-- A request for pods without a user. -/
def exampleRequest : HttpRequest where
  path := "/api/v1/pods"
  ctx.requestInfo := some
    { isResourceRequest := true, path := "/api/v1/pods", verb := "list", apiPrefix := "api",
      apiVersion := "v1", resource := "pods", parts := ["pods"] }

theorem exampleRequest_refused :
    Refused Deps.plain (exampleBindings "ServiceAccount") (withAuthentication none unauthorized []
        false ∘ withAuthorization fun a s =>
          (authorize Deps.plain (exampleBindings "ServiceAccount") false a, s))
      unauthorized exampleRequest () := by
  refine (refused_iff_not_dereferences Deps.plain (exampleBindings "ServiceAccount") false
    unauthorized [] false unauthorized rfl rfl ()).2 ⟨rfl, ?_⟩
  rintro (⟨_, hb, b, hmem, subject, hs, hc⟩ | ⟨hns, -⟩)
  · cases hb
    cases List.mem_singleton.1 hmem
    cases List.mem_singleton.1 hs
    exact absurd hc (by decide)
  · exact absurd rfl hns

/-- With a binding to a user the request is not refused: the filter panics. -/
theorem exampleRequest_panics :
    ((withAuthentication none unauthorized [] false ∘ withAuthorization fun a s =>
      (authorize Deps.plain (exampleBindings "User") false a, s)) unauthorized
        exampleRequest ()).panicked = true ∧
    ¬ Refused Deps.plain (exampleBindings "User") (withAuthentication none unauthorized [] false ∘
        withAuthorization fun a s => (authorize Deps.plain (exampleBindings "User") false a, s))
      unauthorized exampleRequest () := by
  have hpanic : ((withAuthentication none unauthorized [] false ∘ withAuthorization fun a s =>
      (authorize Deps.plain (exampleBindings "User") false a, s)) unauthorized
        exampleRequest ()).panicked = true := by decide
  refine ⟨hpanic, ?_⟩
  rintro ⟨a, reason, -, h, -⟩
  rw [h] at hpanic
  cases hpanic

end Apiserver.Rbac.Nilable
