import Apiserver.Go.Visit
import Apiserver.Rbac.Types
import Mathlib.Data.List.Forall2

/-!
# The rules of a user

The rule resolver (`plugin/authorizer/rbac/validation`) and the authorizer on
top of it (`plugin/authorizer/rbac`). The resolver walks through the cluster
role bindings and then, for a request with a namespace, through the role
bindings; it calls a visitor on every rule of every binding that applies to the
user, and on every error it meets. Two visitors are given to it: one stops at
the first rule that allows the request (`authorize`), one collects all rules
(`rulesFor`).

* `visitRulesFor_eq`: whatever the visitor, the nested loops visit one flat
  list (`visits`), cut where the visitor stops;
* `authorize_decision`: so the authorizer allows a request exactly when a rule
  in that list does, which is the case when the bindings grant it
  (`Granted`, the policy read off the bindings as a formula);
* `authorize_iff_granted`: the decision is that policy, for every resolver,
  user and request.
-/

namespace Apiserver.Rbac

/-! ## Role resolution -/

/-- `DefaultRuleResolver`: two getters and two listers, all of which may fail. -/
structure DefaultRuleResolver where
  /-- `GetRole`, of a namespace and a name. -/
  getRole : String → String → Except Error Role
  /-- `ListRoleBindings`, of a namespace. -/
  listRoleBindings : String → Except Error (List RoleBinding)
  getClusterRole : String → Except Error ClusterRole
  listClusterRoleBindings : Except Error (List ClusterRoleBinding)

namespace DefaultRuleResolver

variable (d : Deps) (r : DefaultRuleResolver) (user : UserInfo)

/-- `GetRoleReferenceRules`. -/
def getRoleReferenceRules (roleRef : RoleRef) (bindingNamespace : String) :
    Except Error (List PolicyRule) :=
  if roleRef.kind = "Role" then
    (r.getRole bindingNamespace roleRef.name).map (·.rules)
  else if roleRef.kind = "ClusterRole" then
    (r.getClusterRole roleRef.name).map (·.rules)
  else .error ("unsupported role reference kind: " ++ d.quote roleRef.kind)

/-! ## Visiting -/

/-- The describers of the source: where a rule comes from, a binding and the
    subject of it that applies. -/
inductive Source
  | clusterRoleBinding (binding : ClusterRoleBinding) (subject : Subject)
  | roleBinding (binding : RoleBinding) (subject : Subject)

/-- `describeSubject`. -/
def describeSubject (s : Subject) (bindingNamespace : String) : String :=
  if s.kind = serviceAccountKind then
    if s.ns.isEmpty then s.kind ++ " " ++ d.quote (s.name ++ "/" ++ bindingNamespace)
    else s.kind ++ " " ++ d.quote (s.name ++ "/" ++ s.ns)
  else s.kind ++ " " ++ d.quote s.name

/-- `String` of the describers. -/
def Source.describe : Source → String
  | .clusterRoleBinding b s =>
    "ClusterRoleBinding " ++ d.quote b.name ++ " of " ++ b.roleRef.kind ++ " " ++
      d.quote b.roleRef.name ++ " to " ++ describeSubject d s ""
  | .roleBinding b s =>
    "RoleBinding " ++ d.quote (b.name ++ "/" ++ b.ns) ++ " of " ++ b.roleRef.kind ++ " " ++
      d.quote b.roleRef.name ++ " to " ++ describeSubject d s b.ns

/-- The arguments of a call of a visitor: a rule with its source, or an error. -/
inductive Visited
  | rule (source : Source) (rule : PolicyRule)
  | error (err : Error)

/-- A visitor with the captured variables `σ`. -/
abbrev Visitor (σ : Type) := σ → Visited → Bool × σ

variable {σ : Type}

/-- The body of the two loops of `VisitRulesFor`, on a binding with the given
    subjects and role reference. -/
def visitBinding (subjects : List Subject) (roleRef : RoleRef) (ns : String)
    (source : Subject → Source) (visitor : Visitor σ) (s : σ) : Bool × σ :=
  match appliesTo user subjects ns with
  | none => (true, s)
  | some i => match r.getRoleReferenceRules d roleRef ns with
    | .error err => visitor s (.error err)
    | .ok rules => Go.visit (fun s rule => visitor s (.rule (source (subjects.get i)) rule)) rules s

/-- The first half of `VisitRulesFor`: the cluster role bindings. -/
def visitClusterRoleBindings (visitor : Visitor σ) (s : σ) : Bool × σ :=
  match r.listClusterRoleBindings with
  | .error err => visitor s (.error err)
  | .ok bindings => Go.visit
      (fun s b => r.visitBinding d user b.subjects b.roleRef "" (.clusterRoleBinding b) visitor s)
      bindings s

/-- The second half of `VisitRulesFor`: the role bindings. -/
def visitRoleBindings (ns : String) (visitor : Visitor σ) (s : σ) : Bool × σ :=
  match r.listRoleBindings ns with
  | .error err => visitor s (.error err)
  | .ok bindings => Go.visit
      (fun s b => r.visitBinding d user b.subjects b.roleRef ns (.roleBinding b) visitor s)
      bindings s

/-- `VisitRulesFor`: the variables of the visitor at the end. -/
def visitRulesFor (ns : String) (visitor : Visitor σ) (s : σ) : σ :=
  (Go.andThen (r.visitClusterRoleBindings d user visitor s) fun s =>
    if ns.isEmpty then (true, s) else r.visitRoleBindings d user ns visitor s).2

/-- The calls a binding leads to, if the visitor never stops. -/
def bindingVisits (subjects : List Subject) (roleRef : RoleRef) (ns : String)
    (source : Subject → Source) : List Visited :=
  match appliesTo user subjects ns with
  | none => []
  | some i => match r.getRoleReferenceRules d roleRef ns with
    | .error err => [.error err]
    | .ok rules => rules.map (.rule (source (subjects.get i)))

/-- The calls the cluster role bindings lead to. -/
def clusterVisits : List Visited :=
  match r.listClusterRoleBindings with
  | .error err => [.error err]
  | .ok bindings => bindings.flatMap fun b =>
      r.bindingVisits d user b.subjects b.roleRef "" (.clusterRoleBinding b)

/-- The calls the role bindings lead to. -/
def roleVisits (ns : String) : List Visited :=
  match r.listRoleBindings ns with
  | .error err => [.error err]
  | .ok bindings => bindings.flatMap fun b =>
      r.bindingVisits d user b.subjects b.roleRef ns (.roleBinding b)

/-- All calls of the visitor, if it never stops. -/
def visits (ns : String) : List Visited :=
  r.clusterVisits d user ++ if ns.isEmpty then [] else r.roleVisits d user ns

/-- A binding is visited as a list. -/
theorem visitBinding_eq (subjects : List Subject) (roleRef : RoleRef) (ns : String)
    (source : Subject → Source) (visitor : Visitor σ) (s : σ) :
    r.visitBinding d user subjects roleRef ns source visitor s =
      Go.visit visitor (r.bindingVisits d user subjects roleRef ns source) s := by
  rw [visitBinding, bindingVisits]
  cases appliesTo user subjects ns with
  | none => rfl
  | some i =>
    dsimp only
    cases r.getRoleReferenceRules d roleRef ns with
    | error err => exact (Go.visit_singleton visitor _ s).symm
    | ok rules => exact (Go.visit_map visitor _ rules s).symm

theorem visitClusterRoleBindings_eq (visitor : Visitor σ) (s : σ) :
    r.visitClusterRoleBindings d user visitor s = Go.visit visitor (r.clusterVisits d user) s := by
  rw [visitClusterRoleBindings, clusterVisits]
  cases r.listClusterRoleBindings with
  | error err => exact (Go.visit_singleton visitor _ s).symm
  | ok bindings =>
    rw [← Go.visit_flatMap]
    simp only [visitBinding_eq]

theorem visitRoleBindings_eq (ns : String) (visitor : Visitor σ) (s : σ) :
    r.visitRoleBindings d user ns visitor s = Go.visit visitor (r.roleVisits d user ns) s := by
  rw [visitRoleBindings, roleVisits]
  cases r.listRoleBindings ns with
  | error err => exact (Go.visit_singleton visitor _ s).symm
  | ok bindings =>
    rw [← Go.visit_flatMap]
    simp only [visitBinding_eq]

/-- Whatever the visitor, the nested loops visit the list `visits`, up to where
    it stops. -/
theorem visitRulesFor_eq (ns : String) (visitor : Visitor σ) (s : σ) :
    r.visitRulesFor d user ns visitor s = (Go.visit visitor (r.visits d user ns) s).2 := by
  rw [visitRulesFor, visitClusterRoleBindings_eq, visits, Go.visit_append]
  congr 2
  funext s
  split_ifs
  · rfl
  · exact r.visitRoleBindings_eq d user ns visitor s

/-! ## The two visitors -/

/-- `ruleAccumulator`. -/
structure RuleAccumulator where
  rules : List PolicyRule := []
  errors : List Error := []

/-- `visit` of `ruleAccumulator`: it collects, and never stops. -/
def RuleAccumulator.visit : Visitor RuleAccumulator
  | acc, .rule _ rule => (true, { acc with rules := acc.rules ++ [rule] })
  | acc, .error err => (true, { acc with errors := acc.errors ++ [err] })

/-- `RulesFor`: the rules that apply to the user, and the errors met. -/
def rulesFor (ns : String) : List PolicyRule × Option Error :=
  let visitor := r.visitRulesFor d user ns RuleAccumulator.visit {}
  (visitor.rules, d.newAggregate visitor.errors)

/-- `authorizingVisitor`, short of the attributes it is given. -/
structure AuthorizingVisitor where
  allowed : Bool := false
  reason : String := ""
  errors : List Error := []

/-- `visit` of `authorizingVisitor`: it stops at a rule that allows the request. -/
def AuthorizingVisitor.visit (a : Attributes) : Visitor AuthorizingVisitor
  | v, .rule source rule =>
    if ruleAllows a rule then
      (false, { v with allowed := true, reason := "RBAC: allowed by " ++ source.describe d })
    else (true, v)
  | v, .error err => (true, { v with errors := v.errors ++ [err] })

/-- `Authorize` of the RBAC authorizer, for attributes with the user `user` (the
    source panics on a nil user). -/
def authorize (a : Attributes) : Answer :=
  let visitor := r.visitRulesFor d user a.ns (AuthorizingVisitor.visit d a) {}
  if visitor.allowed then { decision := .allow, reason := visitor.reason }
  else
    { decision := .noOpinion
      reason := match d.newAggregate visitor.errors with
        | none => ""
        | some err => "RBAC: " ++ err }

/-- The rule of a call, if it has one. -/
def Visited.getRule : Visited → Option PolicyRule
  | .rule _ policyRule => some policyRule
  | .error _ => none

/-- The call is of a rule that allows the request. -/
def Visited.allows (a : Attributes) (v : Visited) : Bool := v.getRule.any (ruleAllows a)

theorem AuthorizingVisitor.visit_fst (a : Attributes) (v : AuthorizingVisitor) (x : Visited) :
    (AuthorizingVisitor.visit d a v x).1 = !x.allows a := by
  cases x with
  | rule source rule =>
    simp only [AuthorizingVisitor.visit, Visited.allows, Visited.getRule, Option.any_some]
    split_ifs with h <;> simp [h]
  | error err => rfl

theorem AuthorizingVisitor.visit_allowed (a : Attributes) (v : AuthorizingVisitor) (x : Visited) :
    (AuthorizingVisitor.visit d a v x).2.allowed = (v.allowed || x.allows a) := by
  cases x with
  | rule source rule =>
    simp only [AuthorizingVisitor.visit, Visited.allows, Visited.getRule, Option.any_some]
    split_ifs with h <;> simp [h]
  | error err => exact (Bool.or_false _).symm

/-- The visitor allows if anything it visits does. -/
theorem AuthorizingVisitor.visit_list_allowed (a : Attributes) (l : List Visited)
    (v : AuthorizingVisitor) :
    (Go.visit (AuthorizingVisitor.visit d a) l v).2.allowed =
      (v.allowed || l.any (Visited.allows a)) := by
  induction l generalizing v with
  | nil => exact (Bool.or_false _).symm
  | cons x l ih =>
    rw [Go.visit_cons, List.any_cons, ← Bool.or_assoc, ← AuthorizingVisitor.visit_allowed d]
    have hfst := AuthorizingVisitor.visit_fst d a v x
    have hsnd := AuthorizingVisitor.visit_allowed d a v x
    rcases hx : AuthorizingVisitor.visit d a v x with ⟨_ | _, v'⟩
    · -- Stopping means that the rule allowed the request.
      rw [hx] at hfst hsnd
      have : x.allows a = true := by simpa using hfst
      have hallowed : v'.allowed = true := by simpa [this] using hsnd
      simp [hallowed]
    · exact ih v'

theorem RuleAccumulator.visit_list_rules (l : List Visited) (acc : RuleAccumulator) :
    (Go.visit RuleAccumulator.visit l acc).2.rules = acc.rules ++ l.filterMap Visited.getRule := by
  induction l generalizing acc with
  | nil => exact (List.append_nil _).symm
  | cons x l ih =>
    rw [Go.visit_cons]
    cases x with
    | rule source rule => simp [RuleAccumulator.visit, ih, Visited.getRule]
    | error err =>
      rw [List.filterMap_cons_none rfl]
      simp [RuleAccumulator.visit, ih]

/-- The decision is whether a visited rule allows the request. -/
theorem authorize_decision (a : Attributes) :
    (r.authorize d user a).decision =
      if (r.visits d user a.ns).any (Visited.allows a) then .allow else .noOpinion := by
  have h := AuthorizingVisitor.visit_list_allowed d a (r.visits d user a.ns) {}
  rw [← visitRulesFor_eq, Bool.false_or] at h
  rw [authorize, ← h]
  split_ifs <;> rfl

theorem rulesFor_rules (ns : String) :
    (r.rulesFor d user ns).1 = (r.visits d user ns).filterMap Visited.getRule := by
  rw [rulesFor, visitRulesFor_eq]
  exact RuleAccumulator.visit_list_rules _ _

theorem any_allows (a : Attributes) (l : List Visited) :
    l.any (Visited.allows a) = rulesAllow a (l.filterMap Visited.getRule) := by
  rw [rulesAllow, List.any_filterMap]
  rfl

/-! ## The policy of the bindings -/

/-- A binding grants a request: one of its subjects applies to the user, and its
    role reference resolves to rules one of which allows the request. -/
def BindingGrants (a : Attributes) (subjects : List Subject) (roleRef : RoleRef) (ns : String) :
    Prop :=
  (∃ s ∈ subjects, appliesToUser user s ns = true) ∧
    ∃ rules, r.getRoleReferenceRules d roleRef ns = .ok rules ∧
      ∃ rule ∈ rules, ruleAllows a rule = true

/-- A cluster role binding grants the request. -/
def ClusterGranted (a : Attributes) : Prop :=
  ∃ bindings, r.listClusterRoleBindings = .ok bindings ∧
    ∃ b ∈ bindings, r.BindingGrants d user a b.subjects b.roleRef ""

/-- A role binding listed for the namespace of the request grants it. -/
def RoleGranted (a : Attributes) : Prop :=
  a.ns ≠ "" ∧ ∃ bindings, r.listRoleBindings a.ns = .ok bindings ∧
    ∃ b ∈ bindings, r.BindingGrants d user a b.subjects b.roleRef a.ns

/-- The bindings grant the request. -/
def Granted (a : Attributes) : Prop := r.ClusterGranted d user a ∨ r.RoleGranted d user a

variable {a : Attributes} {r' : DefaultRuleResolver}

/-- A binding allows what it grants. -/
theorem bindingVisits_any {subjects : List Subject} {roleRef : RoleRef} {ns : String}
    {source : Subject → Source} :
    (r.bindingVisits d user subjects roleRef ns source).any (Visited.allows a) = true ↔
      r.BindingGrants d user a subjects roleRef ns := by
  rw [bindingVisits, BindingGrants]
  cases happ : appliesTo user subjects ns with
  | none =>
    have := appliesTo_eq_none.1 happ
    simp only [List.any_nil, Bool.false_eq_true, false_iff]
    exact fun h => this h.1
  | some i =>
    have happ : ∃ s ∈ subjects, appliesToUser user s ns = true :=
      appliesTo_isSome.1 (by rw [happ]; rfl)
    cases r.getRoleReferenceRules d roleRef ns with
    | error err => simp [Visited.allows, Visited.getRule]
    | ok rules => simp [happ, Visited.allows, Visited.getRule, Function.comp_def]

theorem clusterVisits_any :
    (r.clusterVisits d user).any (Visited.allows a) = true ↔ r.ClusterGranted d user a := by
  rw [clusterVisits, ClusterGranted]
  cases r.listClusterRoleBindings with
  | error err => simp [Visited.allows, Visited.getRule]
  | ok bindings =>
    rw [List.any_flatMap, List.any_eq_true]
    simp only [bindingVisits_any, Except.ok.injEq, exists_eq_left']

theorem roleVisits_any :
    (r.roleVisits d user a.ns).any (Visited.allows a) = true ↔
      ∃ bindings, r.listRoleBindings a.ns = .ok bindings ∧
        ∃ b ∈ bindings, r.BindingGrants d user a b.subjects b.roleRef a.ns := by
  rw [roleVisits]
  cases r.listRoleBindings a.ns with
  | error err => simp [Visited.allows, Visited.getRule]
  | ok bindings =>
    rw [List.any_flatMap, List.any_eq_true]
    simp only [bindingVisits_any, Except.ok.injEq, exists_eq_left']

theorem visits_any :
    (r.visits d user a.ns).any (Visited.allows a) = true ↔ r.Granted d user a := by
  rw [visits, List.any_append, Bool.or_eq_true, clusterVisits_any, Granted, RoleGranted]
  refine or_congr_right ?_
  split_ifs with h
  · have : a.ns = "" := by simpa using h
    simp [this]
  · have : a.ns ≠ "" := by simpa using h
    rw [roleVisits_any]
    simp [this]

/-- The request is allowed exactly when the bindings grant it. -/
theorem authorize_allow_iff :
    (r.authorize d user a).decision = .allow ↔ r.Granted d user a := by
  rw [authorize_decision, ← visits_any]
  split_ifs with h <;> simp [h]

/-! ## Order and errors -/

/-- Two results are both errors, or both values related by `R`. -/
def ExceptRel {α β : Type} (R : α → β → Prop) : Except Error α → Except Error β → Prop
  | .ok a, .ok b => R a b
  | .error _, .error _ => True
  | _, _ => False

/-- `l'` is `l` in another order, up to changing each element along `R`. -/
def PermRel {α β : Type} (R : α → β → Prop) (l : List α) (l' : List β) : Prop :=
  ∃ m, l.Perm m ∧ List.Forall₂ R m l'

/-- `r'` holds what `r` does in another order: of the bindings, of the subjects
    of each, and of the rules of each role. -/
structure Reordered (r r' : DefaultRuleResolver) : Prop where
  getRole : ∀ ns name,
    ExceptRel (fun x y => x.rules.Perm y.rules) (r.getRole ns name) (r'.getRole ns name)
  getClusterRole : ∀ name,
    ExceptRel (fun x y => x.rules.Perm y.rules) (r.getClusterRole name) (r'.getClusterRole name)
  listRoleBindings : ∀ ns,
    ExceptRel (PermRel fun b b' => b.subjects.Perm b'.subjects ∧ b.roleRef = b'.roleRef)
      (r.listRoleBindings ns) (r'.listRoleBindings ns)
  listClusterRoleBindings :
    ExceptRel (PermRel fun b b' => b.subjects.Perm b'.subjects ∧ b.roleRef = b'.roleRef)
      r.listClusterRoleBindings r'.listClusterRoleBindings

/-- The resolver without what fails: a failed list is empty, and bindings that
    do not resolve are left out. -/
def dropErrors : DefaultRuleResolver where
  getRole := r.getRole
  getClusterRole := r.getClusterRole
  listRoleBindings ns := .ok <| match r.listRoleBindings ns with
    | .error _ => []
    | .ok bindings => bindings.filter fun b => (r.getRoleReferenceRules d b.roleRef ns).isOk
  listClusterRoleBindings := .ok <| match r.listClusterRoleBindings with
    | .error _ => []
    | .ok bindings => bindings.filter fun b => (r.getRoleReferenceRules d b.roleRef "").isOk

theorem PermRel.exists_iff {α β : Type} {R : α → β → Prop} {l : List α} {l' : List β}
    (h : PermRel R l l') {P : α → Prop} {Q : β → Prop} (hPQ : ∀ a b, R a b → (P a ↔ Q b)) :
    (∃ a ∈ l, P a) ↔ ∃ b ∈ l', Q b := by
  obtain ⟨m, hm, hR⟩ := h
  simp only [hm.mem_iff]
  clear hm
  induction hR with
  | nil => simp
  | cons hab _ ih => simp [ih, hPQ _ _ hab]

theorem ExceptRel.exists_iff {α β : Type} {R : α → β → Prop} {x : Except Error α}
    {y : Except Error β} (h : ExceptRel R x y) {P : α → Prop} {Q : β → Prop}
    (hPQ : ∀ a b, R a b → (P a ↔ Q b)) :
    (∃ a, x = .ok a ∧ P a) ↔ ∃ b, y = .ok b ∧ Q b := by
  match x, y, h with
  | .ok a, .ok b, h => simpa using hPQ a b h
  | .error _, .error _, _ => simp

variable {d r user}

/-- The order does not change the rules of a role, -/
theorem Reordered.getRoleReferenceRules (h : Reordered r r') (roleRef : RoleRef) (ns : String) :
    ExceptRel List.Perm (r.getRoleReferenceRules d roleRef ns)
      (r'.getRoleReferenceRules d roleRef ns) := by
  rw [DefaultRuleResolver.getRoleReferenceRules, DefaultRuleResolver.getRoleReferenceRules]
  split_ifs
  · have := h.getRole ns roleRef.name
    revert this
    cases r.getRole ns roleRef.name <;> cases r'.getRole ns roleRef.name <;> exact id
  · have := h.getClusterRole roleRef.name
    revert this
    cases r.getClusterRole roleRef.name <;> cases r'.getClusterRole roleRef.name <;> exact id
  · trivial

/-- nor what a binding grants. -/
theorem Reordered.bindingGrants_iff (h : Reordered r r') {subjects subjects' : List Subject}
    {roleRef roleRef' : RoleRef} {ns : String} (hs : subjects.Perm subjects' ∧ roleRef = roleRef') :
    r.BindingGrants d user a subjects roleRef ns ↔
      r'.BindingGrants d user a subjects' roleRef' ns := by
  obtain ⟨hs, rfl⟩ := hs
  refine and_congr (by simp only [hs.mem_iff]) ?_
  exact (h.getRoleReferenceRules roleRef ns).exists_iff fun x y hxy => by simp only [hxy.mem_iff]

theorem Reordered.granted_iff (h : Reordered r r') :
    r.Granted d user a ↔ r'.Granted d user a :=
  or_congr
    (h.listClusterRoleBindings.exists_iff fun _ _ hl =>
      hl.exists_iff fun _ _ hb => h.bindingGrants_iff hb)
    (and_congr_right fun _ => (h.listRoleBindings a.ns).exists_iff fun _ _ hl =>
      hl.exists_iff fun _ _ hb => h.bindingGrants_iff hb)

/-- A binding that grants something resolves. -/
theorem BindingGrants.isOk {subjects : List Subject} {roleRef : RoleRef} {ns : String}
    (h : r.BindingGrants d user a subjects roleRef ns) :
    (r.getRoleReferenceRules d roleRef ns).isOk = true := by
  obtain ⟨_, rules, hr, _⟩ := h
  rw [hr]
  rfl

/-- What cannot be read grants nothing. -/
theorem dropErrors_granted_iff :
    (r.dropErrors d).Granted d user a ↔ r.Granted d user a := by
  -- The role references resolve as before, so a binding grants what it did.
  have hb : ∀ {subjects roleRef ns}, (r.dropErrors d).BindingGrants d user a subjects roleRef ns ↔
      r.BindingGrants d user a subjects roleRef ns := Iff.rfl
  simp only [Granted, ClusterGranted, RoleGranted, hb]
  refine or_congr ?_ (and_congr_right fun _ => ?_)
  · simp only [dropErrors, Except.ok.injEq, exists_eq_left']
    cases r.listClusterRoleBindings with
    | error err => simp
    | ok bindings =>
      simp only [List.mem_filter, Except.ok.injEq, exists_eq_left']
      exact ⟨fun ⟨b, hm, hg⟩ => ⟨b, hm.1, hg⟩, fun ⟨b, hm, hg⟩ => ⟨b, ⟨hm, hg.isOk⟩, hg⟩⟩
  · simp only [dropErrors, Except.ok.injEq, exists_eq_left']
    cases r.listRoleBindings a.ns with
    | error err => simp
    | ok bindings =>
      simp only [List.mem_filter, Except.ok.injEq, exists_eq_left']
      exact ⟨fun ⟨b, hm, hg⟩ => ⟨b, hm.1, hg⟩, fun ⟨b, hm, hg⟩ => ⟨b, ⟨hm, hg.isOk⟩, hg⟩⟩

theorem authorize_congr (h : r.Granted d user a ↔ r'.Granted d user a) :
    (r'.authorize d user a).decision = (r.authorize d user a).decision := by
  rw [← visits_any, ← visits_any] at h
  rw [authorize_decision, authorize_decision]
  exact if_congr h.symm rfl rfl

/-- The decision on a request is the policy of the bindings, for every resolver,
    user and request: it is `allow` exactly when a binding grants the request,
    and `noOpinion` otherwise. It is what the rules of `rulesFor` allow, it does
    not depend on the order of bindings, subjects and rules, and what fails to
    resolve changes nothing. -/
theorem authorize_iff_granted (d : Deps) (r : DefaultRuleResolver) (user : UserInfo)
    (a : Attributes) :
    ((r.authorize d user a).decision = .allow ↔ r.Granted d user a) ∧
    (¬r.Granted d user a → (r.authorize d user a).decision = .noOpinion) ∧
    ((r.authorize d user a).decision = .allow ↔
      rulesAllow a (r.rulesFor d user a.ns).1 = true) ∧
    (∀ r', Reordered r r' →
      (r'.authorize d user a).decision = (r.authorize d user a).decision) ∧
    ((r.dropErrors d).authorize d user a).decision = (r.authorize d user a).decision := by
  refine ⟨authorize_allow_iff d r user, fun h => ?_, ?_,
    fun r' hr => authorize_congr hr.granted_iff,
    authorize_congr dropErrors_granted_iff.symm⟩
  · rw [← visits_any] at h
    rw [authorize_decision, if_neg h]
  · rw [authorize_allow_iff, ← visits_any, rulesFor_rules, any_allows]

end DefaultRuleResolver

end Apiserver.Rbac
