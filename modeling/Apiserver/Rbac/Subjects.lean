import Apiserver.Go.Dedup
import Apiserver.Rbac.Rule

/-!
# Who can make a request

The subject locator (`plugin/authorizer/rbac/subject_locator.go`) answers the
opposite question: given a request, it lists the subjects that can make it. It
walks through the same bindings as the resolver, but asks for the rules first
and then takes all subjects of a binding whose rules allow the request. A
subject in the list no longer tells which binding it comes from.

* `allowedSubjects_eq`: the list is the built-in subjects, and then those of
  every binding that allows the request (`located`);
* `appliesToUser_iff`: what the namespace adds to the users a subject applies to;
* `whoCan_iff`: so a user is found in the list exactly when the request is
  granted, or when a cluster role binding names its service account without a
  namespace (`GrantedInNamespace`);
* `whoCan_agrees_iff`: the two questions have the same answer exactly when no
  request is granted only in that way;
* `firstOccurrences_dedupedSubjects`: at its end the source keeps the first
  occurrences of the subjects, but not in the list it returns, which has no
  duplicates only if there were none (`allowedSubjects_firstOccurrences_iff`).
-/

namespace Apiserver.Rbac

def groupName : String := "rbac.authorization.k8s.io"
def systemPrivilegedGroup : String := "system:masters"

/-- The subjects that are allowed everything. -/
def builtInSubjects (superUser : String) : List Subject :=
  { kind := groupKind, apiGroup := groupName, name := systemPrivilegedGroup } ::
    if superUser.isEmpty then []
    else [{ kind := userKind, apiGroup := groupName, name := superUser }]

namespace DefaultRuleResolver

variable (d : Deps) (r : DefaultRuleResolver) (a : Attributes)

/-- The variables of `AllowedSubjects`. -/
structure Located where
  subjects : List Subject
  errorlist : List Error := []

/-- The body of the two loops of `AllowedSubjects`. -/
def locate (subjects : List Subject) (roleRef : RoleRef) (ns : String) (acc : Located) : Located :=
  match r.getRoleReferenceRules d roleRef ns with
  | .error err =>
    -- The source goes on with the nil rules.
    let acc := { acc with errorlist := acc.errorlist ++ [err] }
    if rulesAllow a [] then { acc with subjects := acc.subjects ++ subjects } else acc
  | .ok rules =>
    if rulesAllow a rules then { acc with subjects := acc.subjects ++ subjects } else acc

/-- The first half of `AllowedSubjects`: the cluster role bindings. -/
def locateCluster (acc : Located) : Located :=
  match r.listClusterRoleBindings with
  | .error err => { acc with errorlist := acc.errorlist ++ [err] }
  | .ok bindings => bindings.foldl (fun acc b => r.locate d a b.subjects b.roleRef "" acc) acc

/-- The second half of `AllowedSubjects`: the role bindings. -/
def locateNamespace (acc : Located) : Located :=
  if a.ns.isEmpty then acc
  else match r.listRoleBindings a.ns with
    | .error err => { acc with errorlist := acc.errorlist ++ [err] }
    | .ok bindings => bindings.foldl (fun acc b => r.locate d a b.subjects b.roleRef a.ns acc) acc

/-- `AllowedSubjects`. The source also removes the duplicates from the subjects,
    and then returns the list they are still in. -/
def allowedSubjects (superUser : String) : List Subject × Option Error :=
  let acc := r.locateNamespace d a (r.locateCluster d a { subjects := builtInSubjects superUser })
  (acc.subjects, d.newAggregate acc.errorlist)

/-! ## The list in closed form -/

/-- The rules a binding refers to allow the request. -/
def BindingAllows (roleRef : RoleRef) (ns : String) : Prop :=
  ∃ rules, r.getRoleReferenceRules d roleRef ns = .ok rules ∧
    ∃ rule ∈ rules, ruleAllows a rule = true

/-- The subjects a binding adds to the list. -/
def bindingSubjects (subjects : List Subject) (roleRef : RoleRef) (ns : String) : List Subject :=
  match r.getRoleReferenceRules d roleRef ns with
  | .error _ => []
  | .ok rules => if rulesAllow a rules then subjects else []

/-- The subjects the bindings add to the list. -/
def located : List Subject :=
  (match r.listClusterRoleBindings with
    | .error _ => []
    | .ok bindings => bindings.flatMap fun b => r.bindingSubjects d a b.subjects b.roleRef "") ++
  if a.ns.isEmpty then []
  else match r.listRoleBindings a.ns with
    | .error _ => []
    | .ok bindings => bindings.flatMap fun b => r.bindingSubjects d a b.subjects b.roleRef a.ns

variable {d r a}

theorem locate_subjects (subjects : List Subject) (roleRef : RoleRef) (ns : String)
    (acc : Located) :
    (r.locate d a subjects roleRef ns acc).subjects =
      acc.subjects ++ r.bindingSubjects d a subjects roleRef ns := by
  rw [locate, bindingSubjects]
  split
  · simp [rulesAllow]
  · split <;> simp

/-- Going through a list of bindings adds the subjects of each, in order. -/
theorem foldl_locate {β : Type} (subjects : β → List Subject) (roleRef : β → RoleRef)
    (ns : String) (bindings : List β) (acc : Located) :
    (bindings.foldl (fun acc b => r.locate d a (subjects b) (roleRef b) ns acc) acc).subjects =
      acc.subjects ++
        bindings.flatMap fun b => r.bindingSubjects d a (subjects b) (roleRef b) ns := by
  induction bindings generalizing acc with
  | nil => simp
  | cons b bindings ih =>
    rw [List.foldl_cons, ih, locate_subjects, List.flatMap_cons, List.append_assoc]

/-- The subjects are those built in, and those located. -/
theorem allowedSubjects_eq (superUser : String) :
    (r.allowedSubjects d a superUser).1 = builtInSubjects superUser ++ r.located d a := by
  have hcluster : ∀ acc, (r.locateCluster d a acc).subjects = acc.subjects ++
      match r.listClusterRoleBindings with
      | .error _ => []
      | .ok bindings =>
        bindings.flatMap fun b => r.bindingSubjects d a b.subjects b.roleRef "" := by
    intro acc
    rw [locateCluster]
    cases r.listClusterRoleBindings with
    | error err => simp
    | ok bindings => exact foldl_locate _ _ _ _ _
  rw [allowedSubjects, located, ← List.append_assoc]
  dsimp only
  rw [locateNamespace]
  split
  · rw [hcluster, List.append_nil]
  · rw [← hcluster { subjects := builtInSubjects superUser }]
    cases r.listRoleBindings a.ns with
    | error err => simp
    | ok bindings => exact foldl_locate _ _ _ _ _

theorem mem_bindingSubjects {s : Subject} {subjects : List Subject} {roleRef : RoleRef}
    {ns : String} : s ∈ r.bindingSubjects d a subjects roleRef ns ↔
      s ∈ subjects ∧ r.BindingAllows d a roleRef ns := by
  rw [bindingSubjects, BindingAllows]
  cases r.getRoleReferenceRules d roleRef ns with
  | error err => simp
  | ok rules => simp [rulesAllow, and_comm]

/-! ## Subjects read in a namespace -/

/-- A service account named without a namespace, read in `ns`. -/
def ReadIn (user : UserInfo) (ns : String) (s : Subject) : Prop :=
  s.kind = serviceAccountKind ∧ s.ns = "" ∧ ns ≠ "" ∧
    user.name = ServiceAccount.makeUsername ns s.name

/-- All that the namespace adds is the service accounts named without one. -/
theorem appliesToUser_iff {user : UserInfo} {ns : String} {s : Subject} :
    appliesToUser user s ns = true ↔ appliesToUser user s "" = true ∨ ReadIn user ns s := by
  rw [appliesToUser, appliesToUser, ReadIn]
  have hu : serviceAccountKind ≠ userKind := by decide
  have hg : serviceAccountKind ≠ groupKind := by decide
  by_cases hsa : s.kind = serviceAccountKind
  · by_cases hs : s.ns = "" <;> by_cases hns : ns = "" <;>
      simp [hsa, hu, hg, hs, hns, ServiceAccount.matchesUsername_iff]
  · simp [hsa]

variable (d r a)

/-- A cluster role binding that allows the request names the service account of
    the user without a namespace, and the request is in that namespace. -/
def GrantedInNamespace (user : UserInfo) : Prop :=
  ∃ bindings, r.listClusterRoleBindings = .ok bindings ∧
    ∃ b ∈ bindings, (∃ s ∈ b.subjects, ReadIn user a.ns s) ∧ r.BindingAllows d a b.roleRef ""

/-- A subject in the list, other than the built-in ones, applies to the user
    when it is read in the namespace of the request. -/
def WhoCan (superUser : String) (user : UserInfo) : Prop :=
  ∃ s ∈ (r.allowedSubjects d a superUser).1.drop (builtInSubjects superUser).length,
    appliesToUser user s a.ns = true

variable {d r a}

/-- A subject is located in a binding that allows the request. -/
theorem mem_located {s : Subject} : s ∈ r.located d a ↔
    (∃ bindings, r.listClusterRoleBindings = .ok bindings ∧
      ∃ b ∈ bindings, s ∈ b.subjects ∧ r.BindingAllows d a b.roleRef "") ∨
    (a.ns ≠ "" ∧ ∃ bindings, r.listRoleBindings a.ns = .ok bindings ∧
      ∃ b ∈ bindings, s ∈ b.subjects ∧ r.BindingAllows d a b.roleRef a.ns) := by
  rw [located, List.mem_append]
  refine or_congr ?_ ?_
  · cases r.listClusterRoleBindings <;> simp [mem_bindingSubjects]
  · by_cases hns : a.ns = ""
    · simp [hns]
    · cases r.listRoleBindings a.ns <;> simp [hns, mem_bindingSubjects]

/-- A user is found in the list exactly when the request is granted, or would be
    if cluster role bindings were read in the namespace of the request. -/
theorem whoCan_iff {superUser : String} {user : UserInfo} :
    r.WhoCan d a superUser user ↔ r.Granted d user a ∨ r.GrantedInNamespace d a user := by
  rw [WhoCan, allowedSubjects_eq, List.drop_left]
  constructor
  · rintro ⟨s, hs, happ⟩
    rcases mem_located.1 hs with ⟨l, hl, b, hb, hsb, hallows⟩ | ⟨hns, l, hl, b, hb, hsb, hallows⟩
    · -- The authorizer compares the subjects of a cluster role binding in no namespace.
      rcases appliesToUser_iff.1 happ with happ | hread
      · exact .inl (.inl ⟨l, hl, b, hb, ⟨s, hsb, happ⟩, hallows⟩)
      · exact .inr ⟨l, hl, b, hb, ⟨s, hsb, hread⟩, hallows⟩
    · exact .inl (.inr ⟨hns, l, hl, b, hb, ⟨s, hsb, happ⟩, hallows⟩)
  · rintro ((⟨l, hl, b, hb, ⟨s, hsb, happ⟩, hallows⟩ |
      ⟨hns, l, hl, b, hb, ⟨s, hsb, happ⟩, hallows⟩) | ⟨l, hl, b, hb, ⟨s, hsb, hread⟩, hallows⟩)
    · exact ⟨s, mem_located.2 (.inl ⟨l, hl, b, hb, hsb, hallows⟩),
        appliesToUser_iff.2 (.inl happ)⟩
    · exact ⟨s, mem_located.2 (.inr ⟨hns, l, hl, b, hb, hsb, hallows⟩), happ⟩
    · exact ⟨s, mem_located.2 (.inl ⟨l, hl, b, hb, hsb, hallows⟩),
        appliesToUser_iff.2 (.inr hread)⟩

/-- A user can make a request and is listed among those who can, or neither,
    unless all that speaks for it is a cluster role binding that names its
    service account without a namespace. -/
theorem whoCan_agrees_iff (d : Deps) (r : DefaultRuleResolver) (superUser : String)
    (a : Attributes) (user : UserInfo) :
    ((r.authorize d user a).decision = .allow ↔ r.WhoCan d a superUser user) ↔
      (r.GrantedInNamespace d a user → r.Granted d user a) := by
  rw [authorize_allow_iff, whoCan_iff]
  constructor
  · intro h hin
    exact h.2 (.inr hin)
  · intro h
    exact ⟨.inl, fun h' => h'.elim id h⟩

/-- A cluster role binding of everything to the service account `builder` of no
    namespace in particular. -/
def exampleResolver : DefaultRuleResolver where
  getRole _ _ := .error "not found"
  listRoleBindings _ := .ok []
  getClusterRole _ := .ok { name := "admin", rules := [allowAll] }
  listClusterRoleBindings := .ok
    [{ name := "builders"
       subjects := [{ kind := "ServiceAccount", name := "builder" }]
       roleRef := { kind := "ClusterRole", name := "admin" } }]

/-- The service account `builder` of the namespace `dev` is listed for a request
    there, and may not make it. -/
theorem exampleResolver_disagrees :
    (exampleResolver.authorize Deps.plain { name := "system:serviceaccount:dev:builder" }
      { verb := "get", ns := "dev", resource := "pods", resourceRequest := true }).decision =
        .noOpinion ∧
    exampleResolver.WhoCan Deps.plain
      { verb := "get", ns := "dev", resource := "pods", resourceRequest := true } ""
      { name := "system:serviceaccount:dev:builder" } := by
  refine ⟨by decide, { kind := "ServiceAccount", name := "builder" }, by decide, by decide⟩

/-! ## Duplicates -/

variable (d r a)

/-- `dedupedSubjects`, which `AllowedSubjects` computes and does not return. -/
def dedupedSubjects (superUser : String) : List Subject :=
  Go.dedup (r.allowedSubjects d a superUser).1

/-- The loop at the end does remove the duplicates. -/
theorem firstOccurrences_dedupedSubjects (superUser : String) :
    Go.FirstOccurrences (builtInSubjects superUser ++ r.located d a)
      (r.dedupedSubjects d a superUser) := by
  rw [← allowedSubjects_eq]
  exact Go.firstOccurrences_dedup _

/-- The list returned is that of the first occurrences among the built-in
    subjects and those of the bindings that allow the request, exactly when no
    subject occurs twice among them. -/
theorem allowedSubjects_firstOccurrences_iff (superUser : String) :
    Go.FirstOccurrences (builtInSubjects superUser ++ r.located d a)
        (r.allowedSubjects d a superUser).1 ↔
      (builtInSubjects superUser ++ r.located d a).Nodup := by
  rw [allowedSubjects_eq]
  exact Go.firstOccurrences_self_iff

/-- Two cluster role bindings of everything to the user `alice`. -/
def twiceBound : DefaultRuleResolver :=
  let binding (name : String) : ClusterRoleBinding :=
    { name
      subjects := [{ kind := "User", apiGroup := "rbac.authorization.k8s.io", name := "alice" }]
      roleRef := { kind := "ClusterRole", name := "admin" } }
  { exampleResolver with listClusterRoleBindings := .ok [binding "admins", binding "owners"] }

/-- The user is listed twice. -/
theorem twiceBound_duplicate :
    ¬Go.FirstOccurrences
      (builtInSubjects "" ++ twiceBound.located Deps.plain
        { verb := "get", ns := "dev", resource := "pods", resourceRequest := true })
      (twiceBound.allowedSubjects Deps.plain
        { verb := "get", ns := "dev", resource := "pods", resourceRequest := true } "").1 := by
  intro h
  exact absurd h.nodup (by decide)

end DefaultRuleResolver

end Apiserver.Rbac
