import Apiserver.Rbac.Rule
import Mathlib.Data.List.InsertIdx

/-!
# Adding to the bindings and roles

What the resolver reads only ever speaks for a request: there is no rule that
denies. So a request that is allowed stays allowed whatever is added, and
wherever in the lists: another binding, whether its role resolves or not, another
subject of a binding, another rule of a role.

* `Addition`, `DefaultRuleResolver.add`: a single addition, at any place;
* `Extends`: a resolver holds all that another one does. An addition extends the
  resolver (`extends_add`), and what is granted stays so (`Extends.granted`);
* `authorize_allow_of_additions`: so a request that is allowed is allowed after
  any list of additions.
-/

namespace Apiserver.Rbac

/-- Something added to what the resolver reads: to the list of bindings at the
    index `i`, or to the `i`-th binding or the role of that name at the index `j`. -/
inductive Addition
  | clusterRoleBinding (i : ℕ) (b : ClusterRoleBinding)
  | roleBinding (ns : String) (i : ℕ) (b : RoleBinding)
  | clusterSubject (i j : ℕ) (s : Subject)
  | subject (ns : String) (i j : ℕ) (s : Subject)
  | clusterRule (name : String) (j : ℕ) (rule : PolicyRule)
  | rule (ns name : String) (j : ℕ) (rule : PolicyRule)

def ClusterRoleBinding.addSubject (j : ℕ) (s : Subject) (b : ClusterRoleBinding) :
    ClusterRoleBinding :=
  { b with subjects := b.subjects.insertIdx j s }

def RoleBinding.addSubject (j : ℕ) (s : Subject) (b : RoleBinding) : RoleBinding :=
  { b with subjects := b.subjects.insertIdx j s }

def ClusterRole.addRule (j : ℕ) (rule : PolicyRule) (role : ClusterRole) : ClusterRole :=
  { role with rules := role.rules.insertIdx j rule }

def Role.addRule (j : ℕ) (rule : PolicyRule) (role : Role) : Role :=
  { role with rules := role.rules.insertIdx j rule }

namespace DefaultRuleResolver

variable (r : DefaultRuleResolver)

/-- The resolver after an addition. What cannot be read stays so. -/
def add : Addition → DefaultRuleResolver
  | .clusterRoleBinding i b =>
    { r with listClusterRoleBindings := r.listClusterRoleBindings.map (·.insertIdx i b) }
  | .roleBinding ns i b =>
    { r with
      listRoleBindings := Function.update r.listRoleBindings ns
        ((r.listRoleBindings ns).map (·.insertIdx i b)) }
  | .clusterSubject i j s =>
    { r with
      listClusterRoleBindings := r.listClusterRoleBindings.map
        (·.modify i (ClusterRoleBinding.addSubject j s)) }
  | .subject ns i j s =>
    { r with
      listRoleBindings := Function.update r.listRoleBindings ns
        ((r.listRoleBindings ns).map (·.modify i (RoleBinding.addSubject j s))) }
  | .clusterRule name j rule =>
    { r with
      getClusterRole := Function.update r.getClusterRole name
        ((r.getClusterRole name).map (ClusterRole.addRule j rule)) }
  | .rule ns name j rule =>
    { r with
      getRole := Function.update r.getRole ns (Function.update (r.getRole ns) name
        ((r.getRole ns name).map (Role.addRule j rule))) }

/-! ## Extensions -/

/-- Where `x` succeeds so does `y`, with a result that extends that of `x`. -/
def Grows {α : Type} (R : α → α → Prop) (x y : Except Error α) : Prop :=
  ∀ a, x = .ok a → ∃ b, y = .ok b ∧ R a b

/-- Every binding of `l` is in `l'`, for the same role and with all its subjects. -/
def BindingsExtend {β : Type} (subjects : β → List Subject) (roleRef : β → RoleRef)
    (l l' : List β) : Prop :=
  ∀ b ∈ l, ∃ b' ∈ l', subjects b ⊆ subjects b' ∧ roleRef b' = roleRef b

/-- The role `x'` has all the rules of `x`. -/
def RoleExtends {ρ : Type} (rules : ρ → List PolicyRule) (x x' : ρ) : Prop := rules x ⊆ rules x'

/-- `r'` holds all that `r` does. -/
structure Extends (r r' : DefaultRuleResolver) : Prop where
  getRole : ∀ ns name,
    Grows (RoleExtends Role.rules) (r.getRole ns name) (r'.getRole ns name)
  getClusterRole : ∀ name,
    Grows (RoleExtends ClusterRole.rules) (r.getClusterRole name) (r'.getClusterRole name)
  listRoleBindings : ∀ ns,
    Grows (BindingsExtend RoleBinding.subjects RoleBinding.roleRef) (r.listRoleBindings ns)
      (r'.listRoleBindings ns)
  listClusterRoleBindings :
    Grows (BindingsExtend ClusterRoleBinding.subjects ClusterRoleBinding.roleRef)
      r.listClusterRoleBindings r'.listClusterRoleBindings

theorem Grows.refl {α : Type} {R : α → α → Prop} (hR : ∀ a, R a a) (x : Except Error α) :
    Grows R x x :=
  fun a ha => ⟨a, ha, hR a⟩

theorem grows_map {α : Type} {R : α → α → Prop} {f : α → α} (hf : ∀ a, R a (f a))
    (x : Except Error α) : Grows R x (x.map f) := by
  rintro a rfl
  exact ⟨f a, rfl, hf a⟩

/-- Replacing one entry of a table by one that grows. -/
theorem grows_update {ι α : Type} [DecidableEq ι] {R : α → α → Prop} (hR : ∀ a, R a a)
    {f : ι → Except Error α} {k : ι} {y : Except Error α} (h : Grows R (f k) y) (i : ι) :
    Grows R (f i) (Function.update f k y i) := by
  by_cases hi : i = k
  · subst hi
    rwa [Function.update_self]
  · rw [Function.update_of_ne hi]
    exact .refl hR _

theorem RoleExtends.refl {ρ : Type} {rules : ρ → List PolicyRule} (x : ρ) :
    RoleExtends rules x x :=
  List.Subset.refl _

section Bindings

variable {β : Type} {subjects : β → List Subject} {roleRef : β → RoleRef}

theorem BindingsExtend.refl (l : List β) : BindingsExtend subjects roleRef l l :=
  fun b hb => ⟨b, hb, List.Subset.refl _, rfl⟩

theorem bindingsExtend_insertIdx (i : ℕ) (b : β) (l : List β) :
    BindingsExtend subjects roleRef l (l.insertIdx i b) :=
  fun b' hb' => ⟨b', List.subset_insertIdx l i b hb', List.Subset.refl _, rfl⟩

/-- A binding that gets more subjects extends the list. -/
theorem bindingsExtend_modify {f : β → β} (hs : ∀ b, subjects b ⊆ subjects (f b))
    (hr : ∀ b, roleRef (f b) = roleRef b) (i : ℕ) (l : List β) :
    BindingsExtend subjects roleRef l (l.modify i f) := by
  intro b hb
  obtain ⟨k, hk, rfl⟩ := List.getElem_of_mem hb
  have hk' : k < (l.modify i f).length := by rwa [List.length_modify]
  refine ⟨(l.modify i f)[k], List.getElem_mem hk', ?_⟩
  rw [List.getElem_modify]
  split_ifs
  · exact ⟨hs _, hr _⟩
  · exact ⟨List.Subset.refl _, rfl⟩

end Bindings

theorem Extends.refl : Extends r r where
  getRole _ _ := .refl RoleExtends.refl _
  getClusterRole _ := .refl RoleExtends.refl _
  listRoleBindings _ := .refl BindingsExtend.refl _
  listClusterRoleBindings := .refl BindingsExtend.refl _

/-- Every single addition extends the resolver. -/
theorem extends_add (x : Addition) : Extends r (r.add x) := by
  cases x with
  | clusterRoleBinding i b =>
    exact { Extends.refl r with
      listClusterRoleBindings := grows_map (bindingsExtend_insertIdx i b) _ }
  | roleBinding ns i b =>
    exact { Extends.refl r with
      listRoleBindings :=
        grows_update BindingsExtend.refl (grows_map (bindingsExtend_insertIdx i b) _) }
  | clusterSubject i j s =>
    have hs : ∀ b : ClusterRoleBinding, b.subjects ⊆ (b.addSubject j s).subjects :=
      fun b => List.subset_insertIdx b.subjects j s
    exact { Extends.refl r with
      listClusterRoleBindings := grows_map (bindingsExtend_modify hs (fun _ => rfl) i) _ }
  | subject ns i j s =>
    have hs : ∀ b : RoleBinding, b.subjects ⊆ (b.addSubject j s).subjects :=
      fun b => List.subset_insertIdx b.subjects j s
    exact { Extends.refl r with
      listRoleBindings := grows_update BindingsExtend.refl
        (grows_map (bindingsExtend_modify hs (fun _ => rfl) i) _) }
  | clusterRule name j rule =>
    have hr : ∀ role, RoleExtends ClusterRole.rules role (role.addRule j rule) :=
      fun role => List.subset_insertIdx role.rules j rule
    exact { Extends.refl r with
      getClusterRole := grows_update RoleExtends.refl (grows_map hr _) }
  | rule ns name j rule =>
    have hr : ∀ role, RoleExtends Role.rules role (role.addRule j rule) :=
      fun role => List.subset_insertIdx role.rules j rule
    refine { Extends.refl r with getRole := fun ns' name' => ?_ }
    -- The table of roles is a table for each namespace.
    rw [add]
    dsimp only
    by_cases hns : ns' = ns
    · subst hns
      rw [Function.update_self]
      exact grows_update RoleExtends.refl (grows_map hr _) name'
    · rw [Function.update_of_ne hns]
      exact .refl RoleExtends.refl _

/-! ## What is granted stays granted -/

variable {d : Deps} {r} {r' : DefaultRuleResolver} {user : UserInfo} {a : Attributes}

theorem Grows.rules {ρ : Type} {rules : ρ → List PolicyRule} {x y : Except Error ρ}
    (h : Grows (RoleExtends rules) x y) : Grows (· ⊆ ·) (x.map rules) (y.map rules) := by
  intro l hl
  cases x with
  | error err => cases hl
  | ok role =>
    obtain ⟨role', rfl, hrules⟩ := h role rfl
    cases hl
    exact ⟨rules role', rfl, hrules⟩

theorem Extends.getRoleReferenceRules (h : Extends r r') (roleRef : RoleRef) (ns : String) :
    Grows (· ⊆ ·) (r.getRoleReferenceRules d roleRef ns)
      (r'.getRoleReferenceRules d roleRef ns) := by
  rw [DefaultRuleResolver.getRoleReferenceRules, DefaultRuleResolver.getRoleReferenceRules]
  split_ifs
  · exact (h.getRole ns roleRef.name).rules
  · exact (h.getClusterRole roleRef.name).rules
  · exact .refl (fun _ => List.Subset.refl _) _

/-- What a binding grants, an extension grants. -/
theorem Extends.bindingGrants (h : Extends r r') {subjects subjects' : List Subject}
    {roleRef roleRef' : RoleRef} {ns : String} (hs : subjects ⊆ subjects' ∧ roleRef' = roleRef)
    (hg : r.BindingGrants d user a subjects roleRef ns) :
    r'.BindingGrants d user a subjects' roleRef' ns := by
  obtain ⟨hs, rfl⟩ := hs
  obtain ⟨⟨s, hsub, happ⟩, rules, hrules, rule, hrule, hallows⟩ := hg
  obtain ⟨rules', hrules', hle⟩ := h.getRoleReferenceRules roleRef' ns rules hrules
  exact ⟨⟨s, hs hsub, happ⟩, rules', hrules', rule, hle hrule, hallows⟩

theorem Extends.granted (h : Extends r r') (hg : r.Granted d user a) : r'.Granted d user a := by
  rcases hg with ⟨l, hl, b, hb, hbg⟩ | ⟨hns, l, hl, b, hb, hbg⟩
  · obtain ⟨l', hl', hext⟩ := h.listClusterRoleBindings l hl
    obtain ⟨b', hb', hbb'⟩ := hext b hb
    exact .inl ⟨l', hl', b', hb', h.bindingGrants hbb' hbg⟩
  · obtain ⟨l', hl', hext⟩ := h.listRoleBindings a.ns l hl
    obtain ⟨b', hb', hbb'⟩ := hext b hb
    exact .inr ⟨hns, l', hl', b', hb', h.bindingGrants hbb' hbg⟩

theorem granted_additions (additions : List Addition) (hg : r.Granted d user a) :
    (additions.foldl add r).Granted d user a := by
  induction additions generalizing r with
  | nil => exact hg
  | cons x additions ih => exact ih ((extends_add r x).granted hg)

/-- A request that is allowed stays allowed, whatever bindings, subjects and
    rules are added. -/
theorem authorize_allow_of_additions (d : Deps) (r : DefaultRuleResolver) (user : UserInfo)
    (a : Attributes) (additions : List Addition)
    (h : (r.authorize d user a).decision = .allow) :
    ((additions.foldl add r).authorize d user a).decision = .allow := by
  rw [authorize_allow_iff] at h ⊢
  exact granted_additions additions h

/-- The role `reader` of the namespace `dev`, bound to the user `alice`. -/
def readers : DefaultRuleResolver where
  getRole ns name :=
    if ns = "dev" ∧ name = "reader" then
      .ok { name, ns, rules := [{ verbs := ["get"], resources := ["pods"] }] }
    else .error "not found"
  listRoleBindings ns := .ok <|
    if ns = "dev" then
      [{ name := "readers", ns
         subjects := [{ kind := "User", name := "alice" }]
         roleRef := { kind := "Role", name := "reader" } }]
    else []
  getClusterRole _ := .error "not found"
  listClusterRoleBindings := .ok []

/-- The request of `alice` is still allowed after additions in front of all that
    speaks for it: a binding that does not resolve, a subject and a rule. -/
theorem readers_additions :
    let a : Attributes :=
      { verb := "get", ns := "dev", resource := "pods", resourceRequest := true }
    let additions : List Addition :=
      [.clusterRoleBinding 0
        { name := "lost", subjects := [{ kind := "User", name := "alice" }]
          roleRef := { kind := "ClusterRole", name := "lost" } },
       .subject "dev" 0 0 { kind := "Group", name := "writers" },
       .rule "dev" "reader" 0 { verbs := ["list"], resources := ["*"] }]
    (readers.authorize Deps.plain { name := "alice" } a).decision = .allow ∧
      ((additions.foldl add readers).authorize Deps.plain { name := "alice" } a).decision =
        .allow := by
  intro a additions
  have h : (readers.authorize Deps.plain { name := "alice" } a).decision = .allow := by decide
  exact ⟨h, authorize_allow_of_additions Deps.plain readers { name := "alice" } a additions h⟩

end DefaultRuleResolver

end Apiserver.Rbac
