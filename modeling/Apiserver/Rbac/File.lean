import Apiserver.Go.Sort
import Apiserver.Rbac.Rule

/-!
# The file-backed authorizer

The storage of roles and bindings read from files
(`plugin/authorizer/rbac/file`), and the authorizer over it (`newRBAC`). The
documents of the files are loaded one by one (`loadConfig`), and then the four
slices are sorted by name, so that a role is found by a binary search.

A role binding is meant to have effect in its own namespace only, and to refer
to a role of that namespace or to a cluster role. The listers of the storage
take no namespace, and `RoleGetter` and `RoleBindingLister` drop theirs, so this
does not hold:

* `get_iff_loaded`: roles and cluster roles with distinct names are found exactly
  if they were loaded;
* `getRole_eq_find`: a role is found by its name alone;
* `isolated_iff`: the roles and role bindings of other namespaces have no
  influence on a request exactly when cluster roles grant it already, or it has
  no namespace and no role is reachable from a cluster role binding.
-/

namespace Apiserver.Rbac

open Go DefaultRuleResolver

/-! ## Storage -/

/-- A document of a configuration file, by the kind it is decoded as. -/
inductive Document
  | role (obj : Role)
  | roleBinding (obj : RoleBinding)
  | clusterRole (obj : ClusterRole)
  | clusterRoleBinding (obj : ClusterRoleBinding)
  | other (kind : String)

def Document.asRole : Document → Option Role
  | .role obj => some obj
  | _ => none

def Document.asRoleBinding : Document → Option RoleBinding
  | .roleBinding obj => some obj
  | _ => none

def Document.asClusterRole : Document → Option ClusterRole
  | .clusterRole obj => some obj
  | _ => none

def Document.asClusterRoleBinding : Document → Option ClusterRoleBinding
  | .clusterRoleBinding obj => some obj
  | _ => none

/-- The slices of `FileStorage` while the files are read. -/
structure Loaded where
  roles : List Role := []
  roleBindings : List RoleBinding := []
  clusterRoles : List ClusterRole := []
  clusterRoleBindings : List ClusterRoleBinding := []

/-- `loadConfig`: a document goes to the slice of its kind; documents of other
    kinds are skipped. -/
def loadConfig (p : Loaded) : Document → Loaded
  | .role obj => { p with roles := p.roles ++ [obj] }
  | .roleBinding obj => { p with roleBindings := p.roleBindings ++ [obj] }
  | .clusterRole obj => { p with clusterRoles := p.clusterRoles ++ [obj] }
  | .clusterRoleBinding obj => { p with clusterRoleBindings := p.clusterRoleBindings ++ [obj] }
  | .other _ => p

/-- `FileStorage` once loaded: its slices are sorted by name. -/
structure FileStorage where
  roles : List Role
  roleBindings : List RoleBinding
  clusterRoles : List ClusterRole
  clusterRoleBindings : List ClusterRoleBinding
  roles_sorted : SortedBy (fun x => x.name) roles
  roleBindings_sorted : SortedBy (fun x => x.name) roleBindings
  clusterRoles_sorted : SortedBy (fun x => x.name) clusterRoles
  clusterRoleBindings_sorted : SortedBy (fun x => x.name) clusterRoleBindings

/-- `f` is a storage `NewFileStorage` may return for the documents `docs`: the
    slices they are loaded into, sorted. -/
structure NewFileStorage (docs : List Document) (f : FileStorage) : Prop where
  roles : IsSortOf (fun x => x.name) (docs.foldl loadConfig {}).roles f.roles
  roleBindings : IsSortOf (fun x => x.name) (docs.foldl loadConfig {}).roleBindings f.roleBindings
  clusterRoles : IsSortOf (fun x => x.name) (docs.foldl loadConfig {}).clusterRoles f.clusterRoles
  clusterRoleBindings : IsSortOf (fun x => x.name)
    (docs.foldl loadConfig {}).clusterRoleBindings f.clusterRoleBindings

/-- Loading sorts the documents by kind, each slice in the order they come. -/
theorem foldl_loadConfig (docs : List Document) (p : Loaded) :
    docs.foldl loadConfig p =
      { roles := p.roles ++ docs.filterMap Document.asRole
        roleBindings := p.roleBindings ++ docs.filterMap Document.asRoleBinding
        clusterRoles := p.clusterRoles ++ docs.filterMap Document.asClusterRole
        clusterRoleBindings :=
          p.clusterRoleBindings ++ docs.filterMap Document.asClusterRoleBinding } := by
  induction docs generalizing p with
  | nil => simp
  | cons doc docs ih =>
    rw [List.foldl_cons, ih]
    cases doc <;>
      simp [loadConfig, List.filterMap_cons, Document.asRole, Document.asRoleBinding,
        Document.asClusterRole, Document.asClusterRoleBinding]

/-- Files always load into some storage: the slices may be sorted by any sort. -/
def FileStorage.ofDocuments (docs : List Document) : FileStorage where
  roles := sliceStable (fun x => x.name) (docs.foldl loadConfig {}).roles
  roleBindings := sliceStable (fun x => x.name) (docs.foldl loadConfig {}).roleBindings
  clusterRoles := sliceStable (fun x => x.name) (docs.foldl loadConfig {}).clusterRoles
  clusterRoleBindings :=
    sliceStable (fun x => x.name) (docs.foldl loadConfig {}).clusterRoleBindings
  roles_sorted := (sliceStable_isSortOf _ _).sorted
  roleBindings_sorted := (sliceStable_isSortOf _ _).sorted
  clusterRoles_sorted := (sliceStable_isSortOf _ _).sorted
  clusterRoleBindings_sorted := (sliceStable_isSortOf _ _).sorted

theorem FileStorage.newFileStorage_ofDocuments (docs : List Document) :
    NewFileStorage docs (.ofDocuments docs) :=
  ⟨sliceStable_isSortOf _ _, sliceStable_isSortOf _ _, sliceStable_isSortOf _ _,
    sliceStable_isSortOf _ _⟩

variable {docs : List Document}

/-- The roles that are sorted are those of the documents. -/
theorem NewFileStorage.roles_filterMap {f : FileStorage} (h : NewFileStorage docs f) :
    IsSortOf (fun x => x.name) (docs.filterMap Document.asRole) f.roles := by
  have hroles := h.roles
  rwa [foldl_loadConfig] at hroles

theorem NewFileStorage.clusterRoles_filterMap {f : FileStorage} (h : NewFileStorage docs f) :
    IsSortOf (fun x => x.name) (docs.filterMap Document.asClusterRole) f.clusterRoles := by
  have hclusterRoles := h.clusterRoles
  rwa [foldl_loadConfig] at hclusterRoles

theorem mem_filterMap_asRole {role : Role} :
    role ∈ docs.filterMap Document.asRole ↔ .role role ∈ docs := by
  rw [List.mem_filterMap]
  constructor
  · rintro ⟨doc, hmem, hdoc⟩
    cases doc <;> cases hdoc
    exact hmem
  · intro hmem
    exact ⟨_, hmem, rfl⟩

theorem mem_filterMap_asClusterRole {clusterRole : ClusterRole} :
    clusterRole ∈ docs.filterMap Document.asClusterRole ↔ .clusterRole clusterRole ∈ docs := by
  rw [List.mem_filterMap]
  constructor
  · rintro ⟨doc, hmem, hdoc⟩
    cases doc <;> cases hdoc
    exact hmem
  · intro hmem
    exact ⟨_, hmem, rfl⟩

/-! ## Listers and getters -/

namespace FileStorage

variable (d : Deps) (f : FileStorage)

/-- `Get` of the role lister. -/
def getRole (name : String) : Except Error Role :=
  match getByKey (fun x => x.name) f.roles name with
  | some ret => .ok ret
  | none => .error (d.newNotFound "Role")

/-- `Get` of the cluster role lister. -/
def getClusterRole (name : String) : Except Error ClusterRole :=
  match getByKey (fun x => x.name) f.clusterRoles name with
  | some ret => .ok ret
  | none => .error (d.newNotFound "ClusterRole")

/-- `NewRBAC`: the resolver over the storage. `GetRole` and `ListRoleBindings`
    ignore the namespace they are given, as in the source. -/
def newRBAC : DefaultRuleResolver where
  getRole _ name := f.getRole d name
  listRoleBindings _ := .ok f.roleBindings
  getClusterRole name := f.getClusterRole d name
  listClusterRoleBindings := .ok f.clusterRoleBindings

/-- A role is found by its name, whatever its namespace. -/
theorem getRole_eq_find (name : String) :
    f.getRole d name = match f.roles.find? fun x => decide (x.name = name) with
      | some ret => .ok ret
      | none => .error (d.newNotFound "Role") := by
  rw [getRole, getByKey_eq_find f.roles_sorted]

variable {name : String}

theorem getRole_eq_ok_iff {role : Role} :
    f.getRole d name = .ok role ↔ getByKey (fun x => x.name) f.roles name = some role := by
  rw [getRole]
  cases getByKey (fun x => x.name) f.roles name <;> simp

theorem getRole_eq_error_iff :
    f.getRole d name = .error (d.newNotFound "Role") ↔
      getByKey (fun x => x.name) f.roles name = none := by
  rw [getRole]
  cases getByKey (fun x => x.name) f.roles name <;> simp

theorem getClusterRole_eq_ok_iff {clusterRole : ClusterRole} :
    f.getClusterRole d name = .ok clusterRole ↔
      getByKey (fun x => x.name) f.clusterRoles name = some clusterRole := by
  rw [getClusterRole]
  cases getByKey (fun x => x.name) f.clusterRoles name <;> simp

theorem getClusterRole_eq_error_iff :
    f.getClusterRole d name = .error (d.newNotFound "ClusterRole") ↔
      getByKey (fun x => x.name) f.clusterRoles name = none := by
  rw [getClusterRole]
  cases getByKey (fun x => x.name) f.clusterRoles name <;> simp

/-- What is found is what was loaded, in whatever order the files are read and
    however the slices are sorted, as long as no name is used twice. -/
theorem get_iff_loaded {docs : List Document} {f : FileStorage} (h : NewFileStorage docs f) :
    (((docs.filterMap Document.asRole).map fun x => x.name).Nodup → ∀ name,
      (∀ role, f.getRole d name = .ok role ↔ .role role ∈ docs ∧ role.name = name) ∧
      (f.getRole d name = .error (d.newNotFound "Role") ↔
        ∀ role, .role role ∈ docs → role.name ≠ name)) ∧
    (((docs.filterMap Document.asClusterRole).map fun x => x.name).Nodup → ∀ name,
      (∀ clusterRole, f.getClusterRole d name = .ok clusterRole ↔
        .clusterRole clusterRole ∈ docs ∧ clusterRole.name = name) ∧
      (f.getClusterRole d name = .error (d.newNotFound "ClusterRole") ↔
        ∀ clusterRole, .clusterRole clusterRole ∈ docs → clusterRole.name ≠ name)) := by
  constructor
  · intro hnodup name
    constructor
    · intro role
      rw [getRole_eq_ok_iff, h.roles_filterMap.getByKey_eq_some_iff hnodup, mem_filterMap_asRole]
    · rw [getRole_eq_error_iff, h.roles_filterMap.getByKey_eq_none_iff]
      simp only [mem_filterMap_asRole]
  · intro hnodup name
    constructor
    · intro clusterRole
      rw [getClusterRole_eq_ok_iff, h.clusterRoles_filterMap.getByKey_eq_some_iff hnodup,
        mem_filterMap_asClusterRole]
    · rw [getClusterRole_eq_error_iff, h.clusterRoles_filterMap.getByKey_eq_none_iff]
      simp only [mem_filterMap_asClusterRole]

/-- The files of `get_iff_loaded_view`: the roles come in descending order. -/
def viewEdit : List Document :=
  [.role { name := "view", rules := [] }, .other "Pod", .role { name := "edit", rules := [] },
    .clusterRole { name := "view", rules := [] }]

theorem get_iff_loaded_view :
    (FileStorage.ofDocuments viewEdit).getRole .plain "view" =
        .ok { name := "view", rules := [] } ∧
      (FileStorage.ofDocuments viewEdit).getClusterRole .plain "edit" =
        .error (Deps.plain.newNotFound "ClusterRole") := by
  obtain ⟨hrole, hclusterRole⟩ :=
    get_iff_loaded .plain (FileStorage.newFileStorage_ofDocuments viewEdit)
  constructor
  · exact ((hrole (by decide) "view").1 _).2 ⟨by simp [viewEdit], rfl⟩
  · refine (hclusterRole (by decide) "edit").2.2 fun clusterRole hmem => ?_
    obtain rfl : clusterRole = { name := "view", rules := [] } := by simpa [viewEdit] using hmem
    decide

/-! ## Namespaces -/

/-- `f'` differs from `f` at most in roles and role bindings of namespaces other
    than `ns`. -/
structure AgreeOn (ns : String) (f f' : FileStorage) : Prop where
  roles : f'.roles.filter (fun x => decide (x.ns = ns)) =
    f.roles.filter (fun x => decide (x.ns = ns))
  roleBindings : f'.roleBindings.filter (fun x => decide (x.ns = ns)) =
    f.roleBindings.filter (fun x => decide (x.ns = ns))
  clusterRoles : f'.clusterRoles = f.clusterRoles
  clusterRoleBindings : f'.clusterRoleBindings = f.clusterRoleBindings

variable (user : UserInfo) (a : Attributes)

/-- One of the subjects of a binding applies to the user. -/
def Applies (subjects : List Subject) (ns : String) : Prop :=
  ∃ s ∈ subjects, appliesToUser user s ns = true

/-- The reference is to a role, and that role, in one of the namespaces `P`,
    allows the request. -/
def RoleAllows (P : String → Prop) (ref : RoleRef) : Prop :=
  ref.kind = "Role" ∧ ∃ role, f.getRole d ref.name = .ok role ∧ P role.ns ∧
    ∃ rule ∈ role.rules, ruleAllows a rule = true

/-- The reference is to a cluster role, and that cluster role allows the request. -/
def ClusterRoleAllows (ref : RoleRef) : Prop :=
  ref.kind = "ClusterRole" ∧ ∃ clusterRole, f.getClusterRole d ref.name = .ok clusterRole ∧
    ∃ rule ∈ clusterRole.rules, ruleAllows a rule = true

/-- A cluster role binding grants the request, or a role binding of the
    namespace of the request does, by a cluster role or a role of that namespace. -/
def GrantedInside : Prop :=
  (f.newRBAC d).ClusterGranted d user a ∨
    (a.ns ≠ "" ∧ ∃ b ∈ f.roleBindings, b.ns = a.ns ∧ Applies user b.subjects a.ns ∧
      (f.ClusterRoleAllows d a b.roleRef ∨ f.RoleAllows d a (· = a.ns) b.roleRef))

/-- Namespaces are isolated, for a request: what allows it is not in another
    namespace, and changing other namespaces does not change the decision. -/
def Isolated : Prop :=
  (((f.newRBAC d).authorize d user a).decision = .allow → f.GrantedInside d user a) ∧
    ∀ f', AgreeOn a.ns f f' →
      ((f'.newRBAC d).authorize d user a).decision = ((f.newRBAC d).authorize d user a).decision

/-- A cluster role grants the request, through a cluster role binding or through
    a role binding of the namespace of the request. -/
def GrantedByClusterRole : Prop :=
  (∃ b ∈ f.clusterRoleBindings, Applies user b.subjects "" ∧ f.ClusterRoleAllows d a b.roleRef) ∨
    (a.ns ≠ "" ∧ ∃ b ∈ f.roleBindings, b.ns = a.ns ∧ Applies user b.subjects a.ns ∧
      f.ClusterRoleAllows d a b.roleRef)

variable {d f user a}

/-- A binding grants a request by the role or the cluster role it refers to. -/
theorem bindingGrants_iff {subjects : List Subject} {ref : RoleRef} {ns : String} :
    (f.newRBAC d).BindingGrants d user a subjects ref ns ↔
      Applies user subjects ns ∧
        (f.ClusterRoleAllows d a ref ∨ f.RoleAllows d a (fun _ => True) ref) := by
  refine and_congr_right fun _ => ?_
  rw [getRoleReferenceRules, ClusterRoleAllows, RoleAllows]
  split_ifs with h₁ h₂
  · cases h : f.getRole d ref.name <;> simp [newRBAC, h, h₁, Except.map]
  · cases h : f.getClusterRole d ref.name <;> simp [newRBAC, h, h₂, Except.map]
  · simp [h₁, h₂]

theorem clusterGranted_iff :
    (f.newRBAC d).ClusterGranted d user a ↔ ∃ b ∈ f.clusterRoleBindings,
      Applies user b.subjects "" ∧
        (f.ClusterRoleAllows d a b.roleRef ∨ f.RoleAllows d a (fun _ => True) b.roleRef) := by
  simp only [ClusterGranted, bindingGrants_iff]
  simp [newRBAC]

theorem roleGranted_iff :
    (f.newRBAC d).RoleGranted d user a ↔ a.ns ≠ "" ∧ ∃ b ∈ f.roleBindings,
      Applies user b.subjects a.ns ∧
        (f.ClusterRoleAllows d a b.roleRef ∨ f.RoleAllows d a (fun _ => True) b.roleRef) := by
  simp only [RoleGranted, bindingGrants_iff]
  simp [newRBAC]

theorem GrantedByClusterRole.granted (h : f.GrantedByClusterRole d user a) :
    (f.newRBAC d).Granted d user a := by
  rcases h with ⟨b, hb, happ, hc⟩ | ⟨hns, b, hb, _, happ, hc⟩
  · exact .inl (clusterGranted_iff.2 ⟨b, hb, happ, .inl hc⟩)
  · exact .inr (roleGranted_iff.2 ⟨hns, b, hb, happ, .inl hc⟩)

theorem GrantedByClusterRole.inside (h : f.GrantedByClusterRole d user a) :
    f.GrantedInside d user a := by
  rcases h with ⟨b, hb, happ, hc⟩ | ⟨hns, b, hb, hbns, happ, hc⟩
  · exact .inl (clusterGranted_iff.2 ⟨b, hb, happ, .inl hc⟩)
  · exact .inr ⟨hns, b, hb, hbns, happ, .inl hc⟩

/-! ### What does not depend on other namespaces -/

theorem AgreeOn.clusterRoleAllows {ns : String} {f' : FileStorage} (h : AgreeOn ns f f')
    {ref : RoleRef} : f'.ClusterRoleAllows d a ref ↔ f.ClusterRoleAllows d a ref := by
  rw [ClusterRoleAllows, ClusterRoleAllows, getClusterRole, getClusterRole, h.clusterRoles]

theorem AgreeOn.mem_roleBindings {ns : String} {f' : FileStorage} (h : AgreeOn ns f f')
    {b : RoleBinding} (hb : b ∈ f.roleBindings) (hns : b.ns = ns) : b ∈ f'.roleBindings := by
  have : b ∈ f'.roleBindings.filter (fun x => decide (x.ns = ns)) := by
    rw [h.roleBindings]
    exact List.mem_filter.2 ⟨hb, by simpa using hns⟩
  exact List.mem_of_mem_filter this

theorem AgreeOn.grantedByClusterRole {f' : FileStorage} (h : AgreeOn a.ns f f')
    (hg : f.GrantedByClusterRole d user a) : f'.GrantedByClusterRole d user a := by
  rcases hg with ⟨b, hb, happ, hc⟩ | ⟨hns, b, hb, hbns, happ, hc⟩
  · exact .inl ⟨b, h.clusterRoleBindings ▸ hb, happ, h.clusterRoleAllows.2 hc⟩
  · exact .inr ⟨hns, b, h.mem_roleBindings hb hbns, hbns, happ, h.clusterRoleAllows.2 hc⟩

/-- A request without a namespace is granted by cluster roles only, if no
    cluster role binding that applies refers to a role. -/
theorem granted_iff_of_no_role (hns : a.ns = "")
    (hr : ∀ b ∈ f.clusterRoleBindings, Applies user b.subjects "" → b.roleRef.kind ≠ "Role") :
    (f.newRBAC d).Granted d user a ↔ ∃ b ∈ f.clusterRoleBindings,
      Applies user b.subjects "" ∧ f.ClusterRoleAllows d a b.roleRef := by
  rw [Granted, clusterGranted_iff, roleGranted_iff]
  constructor
  · rintro (⟨b, hb, happ, hc | hrole⟩ | ⟨hne, _⟩)
    · exact ⟨b, hb, happ, hc⟩
    · exact absurd hrole.1 (hr b hb happ)
    · exact absurd hns hne
  · rintro ⟨b, hb, happ, hc⟩
    exact .inl ⟨b, hb, happ, .inl hc⟩

theorem isolated_of_grantedByClusterRole (h : f.GrantedByClusterRole d user a) :
    f.Isolated d user a := by
  refine ⟨fun _ => h.inside, fun f' hf => ?_⟩
  rw [authorize_allow_iff d (f.newRBAC d) user |>.2 h.granted,
    authorize_allow_iff d (f'.newRBAC d) user |>.2 (hf.grantedByClusterRole h).granted]

/-- Without a role bound to the cluster, nothing leaks. -/
theorem isolated_of_no_role (hns : a.ns = "")
    (hr : ∀ b ∈ f.clusterRoleBindings, Applies user b.subjects "" → b.roleRef.kind ≠ "Role") :
    f.Isolated d user a := by
  constructor
  · rw [authorize_allow_iff, granted_iff_of_no_role hns hr]
    rintro ⟨b, hb, happ, hc⟩
    exact .inl (clusterGranted_iff.2 ⟨b, hb, happ, .inl hc⟩)
  · intro f' hf
    apply authorize_congr
    rw [granted_iff_of_no_role hns hr,
      granted_iff_of_no_role hns (by rw [hf.clusterRoleBindings]; exact hr),
      hf.clusterRoleBindings]
    simp only [hf.clusterRoleAllows]

/-! ### What other namespaces can do -/

/-- A namespace other than `ns`. -/
def otherNamespace (ns : String) : String := ns ++ "-other"

theorem otherNamespace_ne (ns : String) : otherNamespace ns ≠ ns := by
  intro h
  have := congrArg String.length h
  simp [otherNamespace] at this

/-- An empty role of another namespace with the name of `r`. -/
def shadow (ns : String) (r : Role) : Role :=
  { name := r.name, ns := otherNamespace ns, rules := [] }

theorem find?_shadow (ns name : String) (l : List Role) :
    (l.flatMap fun r => [shadow ns r, r]).find? (fun x => decide (x.name = name)) =
      (l.find? fun x => decide (x.name = name)).map (shadow ns) := by
  induction l with
  | nil => rfl
  | cons r l ih =>
    rw [List.flatMap_cons, List.cons_append, List.find?_cons, List.find?_cons]
    have : (shadow ns r).name = r.name := rfl
    by_cases h : r.name = name <;> simp [this, h, ih]

theorem filter_shadow (ns : String) {l : List Role} (hl : ∀ r ∈ l, r.ns = ns) :
    (l.flatMap fun r => [shadow ns r, r]).filter (fun x => decide (x.ns = ns)) = l := by
  induction l with
  | nil => rfl
  | cons r l ih =>
    rw [List.forall_mem_cons] at hl
    have : (shadow ns r).ns ≠ ns := otherNamespace_ne ns
    rw [List.flatMap_cons, List.filter_append, ih hl.2]
    simp [this, hl.1]

/-- The storage left with the namespace `ns`, and a role of another namespace in
    front of each of its roles: no role of it is found any more. -/
def shadowed (f : FileStorage) (ns : String) : FileStorage where
  roles := (f.roles.filter fun x => decide (x.ns = ns)).flatMap fun r => [shadow ns r, r]
  roleBindings := f.roleBindings.filter fun x => decide (x.ns = ns)
  clusterRoles := f.clusterRoles
  clusterRoleBindings := f.clusterRoleBindings
  roles_sorted := by
    refine List.pairwise_flatMap.2 ⟨fun r _ => by simp [shadow], ?_⟩
    refine (f.roles_sorted.filter _).imp fun {r r'} h => ?_
    simpa [shadow] using h
  roleBindings_sorted := f.roleBindings_sorted.filter _
  clusterRoles_sorted := f.clusterRoles_sorted
  clusterRoleBindings_sorted := f.clusterRoleBindings_sorted

theorem shadowed_agreeOn (f : FileStorage) (ns : String) : AgreeOn ns f (f.shadowed ns) where
  roles := filter_shadow ns fun r hr => by simpa using (List.mem_filter.1 hr).2
  roleBindings := by simp [shadowed, List.filter_filter]
  clusterRoles := rfl
  clusterRoleBindings := rfl

/-- No role of the namespace is found behind those of another. -/
theorem not_roleAllows_shadowed {ns : String} {ref : RoleRef} :
    ¬(f.shadowed ns).RoleAllows d a (fun _ => True) ref := by
  rintro ⟨_, role, hrole, _, rule, hrule, _⟩
  rw [getRole_eq_find] at hrole
  have hf := find?_shadow ns ref.name (f.roles.filter fun x => decide (x.ns = ns))
  rw [shadowed, hf] at hrole
  cases hx : (f.roles.filter fun x => decide (x.ns = ns)).find?
      fun x => decide (x.name = ref.name) with
  | none => simp [hx] at hrole
  | some r =>
    simp only [hx, Option.map_some, Except.ok.injEq] at hrole
    subst hrole
    exact absurd hrule List.not_mem_nil

/-- With its roles shadowed, the namespace has nothing but cluster roles. -/
theorem grantedByClusterRole_of_shadowed
    (h : ((f.shadowed a.ns).newRBAC d).Granted d user a) : f.GrantedByClusterRole d user a := by
  have hagree := f.shadowed_agreeOn a.ns
  rw [Granted, clusterGranted_iff, roleGranted_iff] at h
  rcases h with ⟨b, hb, happ, hc | hr⟩ | ⟨hns, b, hb, happ, hc | hr⟩
  · exact .inl ⟨b, hb, happ, hagree.clusterRoleAllows.1 hc⟩
  · exact absurd hr not_roleAllows_shadowed
  · have hb := List.mem_filter.1 hb
    exact .inr ⟨hns, b, hb.1, by simpa using hb.2, happ, hagree.clusterRoleAllows.1 hc⟩
  · exact absurd hr not_roleAllows_shadowed

section Intrusion

variable {α : Type} (key : α → String)

/-- Inserting `x` before the elements whose key is not smaller. -/
def insertFirst (x : α) (l : List α) : List α :=
  l.orderedInsert (fun x y => key x ≤ key y) x

variable {key}

theorem insertFirst_sorted (x : α) {l : List α} (hl : SortedBy key l) :
    SortedBy key (insertFirst key x l) :=
  haveI : Std.Total fun x y : α => key x ≤ key y := ⟨fun x y => le_total (key x) (key y)⟩
  haveI : IsTrans α fun x y => key x ≤ key y := ⟨fun _ _ _ => le_trans⟩
  List.Pairwise.orderedInsert x l hl

theorem mem_insertFirst (x : α) (l : List α) : x ∈ insertFirst key x l :=
  (List.mem_orderedInsert _).2 (.inl rfl)

theorem find?_insertFirst (key : α → String) (x : α) (l : List α) :
    (insertFirst key x l).find? (fun y => decide (key y = key x)) = some x := by
  induction l with
  | nil => simp [insertFirst]
  | cons y l ih =>
    rw [insertFirst, List.orderedInsert]
    split_ifs with h
    · simp
    · have : key y ≠ key x := fun e => h (le_of_eq e.symm)
      rw [List.find?_cons_of_neg (by simpa using this)]
      exact ih

theorem filter_insertFirst {p : α → Bool} {x : α} (hx : p x = false) (l : List α) :
    (insertFirst key x l).filter p = l.filter p := by
  induction l with
  | nil => simp [insertFirst, hx]
  | cons y l ih =>
    rw [insertFirst, List.orderedInsert]
    split_ifs
    · simp [hx]
    · rw [List.filter_cons, List.filter_cons, ← ih]
      rfl

end Intrusion

/-- A role of another namespace that allows everything. -/
def intruder (ns name : String) : Role :=
  { name := name, ns := otherNamespace ns, rules := [allowAll] }

/-- A role binding of another namespace that binds the user to the role `name`. -/
def intruderBinding (user : UserInfo) (ns name : String) : RoleBinding :=
  { name := name, ns := otherNamespace ns, subjects := [{ kind := userKind, name := user.name }],
    roleRef := { kind := "Role", name := name } }

/-- The storage with both of them added. -/
def intruded (f : FileStorage) (user : UserInfo) (ns name : String) : FileStorage where
  roles := insertFirst (fun x => x.name) (intruder ns name) f.roles
  roleBindings := insertFirst (fun x => x.name) (intruderBinding user ns name) f.roleBindings
  clusterRoles := f.clusterRoles
  clusterRoleBindings := f.clusterRoleBindings
  roles_sorted := insertFirst_sorted _ f.roles_sorted
  roleBindings_sorted := insertFirst_sorted _ f.roleBindings_sorted
  clusterRoles_sorted := f.clusterRoles_sorted
  clusterRoleBindings_sorted := f.clusterRoleBindings_sorted

theorem intruded_agreeOn (f : FileStorage) (user : UserInfo) (ns name : String) :
    AgreeOn ns f (f.intruded user ns name) where
  roles := filter_insertFirst (p := fun x : Role => decide (x.ns = ns))
    (decide_eq_false (otherNamespace_ne ns)) _
  roleBindings := filter_insertFirst (p := fun x : RoleBinding => decide (x.ns = ns))
    (decide_eq_false (otherNamespace_ne ns)) _
  clusterRoles := rfl
  clusterRoleBindings := rfl

/-- A role that was added in front allows everything. -/
theorem intruded_roleAllows {ns : String} (ref : RoleRef) (hkind : ref.kind = "Role") :
    (f.intruded user ns ref.name).RoleAllows d a (fun _ => True) ref := by
  refine ⟨hkind, intruder ns ref.name, ?_, trivial, allowAll, by simp [intruder],
    ruleAllows_allowAll a⟩
  have := find?_insertFirst (fun x : Role => x.name) (intruder ns ref.name) f.roles
  rw [getRole_eq_find]
  simp only [intruded]
  rw [show (fun x : Role => decide (x.name = ref.name)) =
    fun x => decide (x.name = (intruder ns ref.name).name) from rfl, this]

/-- The intruders grant every request with a namespace. -/
theorem intruded_roleGranted (hns : a.ns ≠ "") :
    ((f.intruded user a.ns name).newRBAC d).Granted d user a := by
  refine .inr (roleGranted_iff.2 ⟨hns, intruderBinding user a.ns name, mem_insertFirst _ _, ?_,
    .inr (intruded_roleAllows { kind := "Role", name := name } rfl)⟩)
  exact ⟨_, List.mem_singleton_self _, by simp [appliesToUser]⟩

/-- They grant every request of a user with a cluster role binding to a role. -/
theorem intruded_clusterGranted {b : ClusterRoleBinding} (hb : b ∈ f.clusterRoleBindings)
    (happ : Applies user b.subjects "") (hkind : b.roleRef.kind = "Role") :
    ((f.intruded user a.ns b.roleRef.name).newRBAC d).Granted d user a :=
  .inl (clusterGranted_iff.2 ⟨b, hb, happ, .inr (intruded_roleAllows _ hkind)⟩)

/-- A storage that intruders can open is only isolated if cluster roles grant the
    request: with the roles shadowed, nothing else does. -/
theorem grantedByClusterRole_of_isolated (name : String)
    (hopen : ((f.intruded user a.ns name).newRBAC d).Granted d user a)
    (h : f.Isolated d user a) : f.GrantedByClusterRole d user a := by
  have hopen := (authorize_allow_iff d _ user).2 hopen
  rw [h.2 _ (f.intruded_agreeOn user a.ns name), ← h.2 _ (f.shadowed_agreeOn a.ns),
    authorize_allow_iff] at hopen
  exact grantedByClusterRole_of_shadowed hopen

/-- Other namespaces have no influence on a request exactly when cluster roles
    grant it (through a cluster role binding or a role binding of its
    namespace), or when it has no namespace and no cluster role binding that
    applies to the user refers to a role. -/
theorem isolated_iff (d : Deps) (f : FileStorage) (user : UserInfo) (a : Attributes) :
    f.Isolated d user a ↔
      f.GrantedByClusterRole d user a ∨
        (a.ns = "" ∧ ∀ b ∈ f.clusterRoleBindings,
          Applies user b.subjects "" → b.roleRef.kind ≠ "Role") := by
  constructor
  · intro h
    by_cases hns : a.ns = ""
    · by_cases hr : ∀ b ∈ f.clusterRoleBindings, Applies user b.subjects "" →
          b.roleRef.kind ≠ "Role"
      · exact .inr ⟨hns, hr⟩
      · push Not at hr
        obtain ⟨b, hb, happ, hkind⟩ := hr
        exact .inl (grantedByClusterRole_of_isolated _ (intruded_clusterGranted hb happ hkind) h)
    · exact .inl (grantedByClusterRole_of_isolated "" (intruded_roleGranted hns) h)
  · rintro (h | ⟨hns, hr⟩)
    · exact isolated_of_grantedByClusterRole h
    · exact isolated_of_no_role hns hr

/-- A role and a role binding of the namespace `b` for the user `alice`. -/
def exampleStorage : FileStorage where
  roles := [{ name := "reader", ns := "b", rules := [{ verbs := ["get"], resources := ["pods"] }] }]
  roleBindings :=
    [{ name := "readers"
       ns := "b"
       subjects := [{ kind := "User", name := "alice" }]
       roleRef := { kind := "Role", name := "reader" } }]
  clusterRoles := []
  clusterRoleBindings := []
  roles_sorted := List.pairwise_singleton _ _
  roleBindings_sorted := List.pairwise_singleton _ _
  clusterRoles_sorted := .nil
  clusterRoleBindings_sorted := .nil

/-- They let `alice` read the pods of the namespace `a`. -/
theorem exampleStorage_not_isolated :
    ¬exampleStorage.Isolated Deps.plain { name := "alice" }
      { verb := "get", ns := "a", resource := "pods", resourceRequest := true } := by
  intro h
  rcases h.1 (by decide) with ⟨_, hl, b, hb, _⟩ | ⟨_, b, hb, hns, _⟩
  · cases hl
    exact absurd hb List.not_mem_nil
  · rw [List.mem_singleton.1 hb] at hns
    exact absurd hns (by decide)

end FileStorage

end Apiserver.Rbac
