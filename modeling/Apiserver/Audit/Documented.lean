import Apiserver.Audit.Policy
import Mathlib.Data.List.Dedup

/-!
# What audit policies say

The types of an audit policy document what its fields mean
(`pkg/apis/audit/type_v1.go`): a resource of an entry is the name of a resource,
of a subresource, or one of three wildcards (`ResourcePattern`). This module
compares the checker with that.

* `documented_iff`: when an entry should match, as an equation of strings;
* `resourceMatches_iff`: the checker matches what is documented, and `pods/*`
  also matches the pods themselves;
* `ruleMatches_iff_documented`: but for that, a rule matches the requests that
  match every field of it;
* `levelAndStages_of_find`, `levelAndStages_of_none`: the first rule that matches
  gives the level and, with the policy, the stages;
* `asDocumented_iff`: so a policy means what it says on a request exactly when no
  entry is taken to match the resource of a subresource pattern
  (`Overreaches`).
-/

namespace Apiserver.Audit

open Go

/-! ## Patterns -/

/-- The forms of a resource in an entry. -/
inductive ResourcePattern
  /-- `*`: all resources and their subresources. -/
  | all
  /-- `pods`: the resource. -/
  | resource (r : String)
  /-- `pods/log`: the subresource `log` of pods. -/
  | subresource (r s : String)
  /-- `pods/*`: all subresources of pods. -/
  | subresources (r : String)
  /-- `*/scale`: all scale subresources. -/
  | anySubresource (s : String)
  deriving DecidableEq

namespace ResourcePattern

/-- The parts of a pattern between slashes. -/
def parts : ResourcePattern → List String
  | all => ["*"]
  | resource r => [r]
  | subresource r s => [r, s]
  | subresources r => [r, "*"]
  | anySubresource s => ["*", s]

/-- A pattern as it is written. -/
def render (p : ResourcePattern) : String := join p.parts "/"

/-- The pattern matches the resource and subresource of a request. A request for
    a resource itself has an empty subresource. -/
def Matches (a : Attributes) : ResourcePattern → Prop
  | all => True
  | resource r => a.resource = r ∧ a.subresource = ""
  | subresource r s => a.resource = r ∧ a.subresource = s ∧ s ≠ ""
  | subresources r => a.resource = r ∧ a.subresource ≠ ""
  | anySubresource s => a.subresource = s ∧ s ≠ ""

end ResourcePattern

variable (a : Attributes)

/-- A resource of an entry is documented to match: it can be read as a pattern
    that does. -/
def Documented (res : String) : Prop := ∃ p : ResourcePattern, p.render = res ∧ p.Matches a

/-- An entry is documented to match, in its group. -/
def EntryDocumented (gr : GroupResources) : Prop :=
  gr.resources = [] ∨
    (gr.resourceNames = [] ∨ a.name ∈ gr.resourceNames) ∧ ∃ res ∈ gr.resources, Documented a res

/-- The request is for a resource, and the entry lists its subresources and
    nothing that covers the resource. -/
def Overreaches (gr : GroupResources) : Prop :=
  a.subresource = "" ∧ (gr.resourceNames = [] ∨ a.name ∈ gr.resourceNames) ∧
    a.resource ++ "/*" ∈ gr.resources ∧ ¬∃ res ∈ gr.resources, Documented a res

variable {a}

theorem ResourcePattern.render_subresources (r : String) :
    (subresources r).render = r ++ "/*" := by
  change r ++ "/" ++ "*" = r ++ "/*"
  rw [String.append_assoc]
  rfl

/-- What is documented, as equations of texts. -/
theorem documented_iff {res : String} : Documented a res ↔
    res = "*" ∨ (a.subresource = "" ∧ res = a.resource) ∨
    (a.subresource ≠ "" ∧ (res = a.resource ++ "/" ++ a.subresource ∨ res = a.resource ++ "/*" ∨
      res = "*/" ++ a.subresource)) := by
  constructor
  · rintro ⟨p, rfl, hp⟩
    cases p with
    | all => exact .inl rfl
    | resource r => exact .inr (.inl ⟨hp.2, hp.1.symm⟩)
    | subresource r s =>
      obtain ⟨rfl, rfl, hs⟩ := hp
      exact .inr (.inr ⟨hs, .inl rfl⟩)
    | subresources r =>
      obtain ⟨rfl, hs⟩ := hp
      exact .inr (.inr ⟨hs, .inr (.inl (ResourcePattern.render_subresources _))⟩)
    | anySubresource s =>
      obtain ⟨rfl, hs⟩ := hp
      exact .inr (.inr ⟨hs, .inr (.inr rfl)⟩)
  · rintro (rfl | ⟨hs, rfl⟩ | ⟨hs, rfl | rfl | rfl⟩)
    · exact ⟨.all, rfl, trivial⟩
    · exact ⟨.resource a.resource, rfl, rfl, hs⟩
    · exact ⟨.subresource a.resource a.subresource, rfl, rfl, rfl, hs⟩
    · exact ⟨.subresources a.resource, ResourcePattern.render_subresources _, rfl, hs⟩
    · exact ⟨.anySubresource a.subresource, rfl, rfl, hs⟩

instance (res : String) : Decidable (Documented a res) := decidable_of_iff' _ documented_iff

instance (gr : GroupResources) : Decidable (EntryDocumented a gr) :=
  inferInstanceAs (Decidable (_ ∨ _ ∧ _))

/-! ## The checker -/

/-- The checker matches what is documented, and the resource itself for a pattern
    of its subresources. -/
theorem resourceMatches_iff {res : String} : resourceMatches a res = true ↔
    Documented a res ∨ (a.subresource = "" ∧ res = a.resource ++ "/*") := by
  have hsub : (hasPrefix res "*/" = true ∧ a.subresource = trimPrefix res "*/") ↔
      res = "*/" ++ a.subresource := hasPrefix_and_trimPrefix_iff
  have hall : (hasSuffix res "/*" = true ∧ a.resource = trimSuffix res "/*") ↔
      res = a.resource ++ "/*" := hasSuffix_and_trimSuffix_iff
  rw [documented_iff, resourceMatches]
  by_cases hs : a.subresource = ""
  · simp [hs, hall]
    grind
  · simp [hs, hall, hsub]
    grind

/-- An entry matches what is documented, or overreaches. -/
theorem entryMatches_iff {gr : GroupResources} :
    entryMatches a gr = true ↔ EntryDocumented a gr ∨ Overreaches a gr := by
  have hnames : (gr.resourceNames.isEmpty || gr.resourceNames.contains a.name) = true ↔
      gr.resourceNames = [] ∨ a.name ∈ gr.resourceNames := by simp
  rw [entryMatches, Bool.or_eq_true, List.any_eq_true, List.isEmpty_iff, EntryDocumented,
    Overreaches]
  simp only [Bool.and_eq_true, hnames, resourceMatches_iff]
  constructor
  · rintro (hempty | ⟨res, hres, hname, hdoc | ⟨hs, rfl⟩⟩)
    · exact .inl (.inl hempty)
    · exact .inl (.inr ⟨hname, res, hres, hdoc⟩)
    · -- Another resource of the entry may cover the request.
      by_cases hdoc : ∃ res ∈ gr.resources, Documented a res
      · exact .inl (.inr ⟨hname, hdoc⟩)
      · exact .inr ⟨hs, hname, hres, hdoc⟩
  · rintro ((hempty | ⟨hname, res, hres, hdoc⟩) | ⟨hs, hname, hres, -⟩)
    · exact .inl hempty
    · exact .inr ⟨res, hres, hname, .inl hdoc⟩
    · exact .inr ⟨_, hres, hname, .inr ⟨hs, rfl⟩⟩

/-- What an entry matches beyond the resource it lists is not documented. -/
theorem Overreaches.not_entryDocumented {gr : GroupResources} (h : Overreaches a gr) :
    ¬EntryDocumented a gr := by
  rintro (hempty | ⟨-, hdoc⟩)
  · have := h.2.2.1
    rw [hempty] at this
    cases this
  · exact h.2.2.2 hdoc

theorem mem_unionStages {l l' : List Stage} {s : Stage} :
    s ∈ unionStages l l' ↔ s ∈ l ∨ s ∈ l' := by
  rw [unionStages, List.mem_dedup, List.mem_append]

/-- The checker tries the rules of the policy: it changes their stages, which are
    not compared. -/
theorem find?_newChecker (p : Policy) (a : Attributes) :
    (newChecker p).rules.find? (ruleMatches · a) = (p.rules.find? (ruleMatches · a)).map fun r =>
      { r with omitStages := unionStages p.omitStages r.omitStages } := by
  rw [newChecker, List.find?_map]
  rfl

/-- What a rule applies to: resources, paths, or everything if it names neither. -/
def TargetDocumented (r : PolicyRule) (a : Attributes) : Prop :=
  if r.namespaces = [] ∧ r.resources = [] then
    r.nonResourceURLs = [] ∨
      (a.resourceRequest = false ∧ ∃ url ∈ r.nonResourceURLs, pathMatches a.path url = true)
  else
    a.resourceRequest = true ∧ (r.namespaces = [] ∨ a.ns ∈ r.namespaces) ∧
      (r.resources = [] ∨ ∃ gr ∈ r.resources, gr.group = a.apiGroup ∧ EntryDocumented a gr)

/-- A rule is documented to match a request that matches every field of it. -/
structure RuleDocumented (r : PolicyRule) (a : Attributes) : Prop where
  users : r.users = [] ∨ ∃ user, a.user = some user ∧ user.name ∈ r.users
  userGroups : r.userGroups = [] ∨
    ∃ user, a.user = some user ∧ ∃ group ∈ user.groups, group ∈ r.userGroups
  verbs : r.verbs = [] ∨ a.verb ∈ r.verbs
  target : TargetDocumented r a

variable {r : PolicyRule}

/-- The checks of a rule one after the other are those of its fields. -/
theorem ruleMatches_iff : ruleMatches r a = true ↔
    ruleMatchesUser r a = true ∧ ruleMatchesVerb r a = true ∧
      if r.namespaces = [] ∧ r.resources = [] then
        r.nonResourceURLs = [] ∨ ruleMatchesNonResource r a = true
      else ruleMatchesResource r a = true := by
  rw [ruleMatches]
  cases ruleMatchesUser r a <;> cases ruleMatchesVerb r a <;>
    by_cases hns : r.namespaces = [] <;> by_cases hres : r.resources = [] <;>
      by_cases hurls : r.nonResourceURLs = [] <;> simp [hns, hres, hurls]

theorem ruleMatchesUser_iff : ruleMatchesUser r a = true ↔
    (r.users = [] ∨ ∃ user, a.user = some user ∧ user.name ∈ r.users) ∧
      (r.userGroups = [] ∨
        ∃ user, a.user = some user ∧ ∃ group ∈ user.groups, group ∈ r.userGroups) := by
  rw [ruleMatchesUser]
  cases a.user <;> simp

theorem ruleMatchesNonResource_iff : ruleMatchesNonResource r a = true ↔
    a.resourceRequest = false ∧ ∃ url ∈ r.nonResourceURLs, pathMatches a.path url = true := by
  rw [ruleMatchesNonResource]
  cases a.resourceRequest <;> simp

/-- A rule looks at the namespace and at its entries. -/
theorem ruleMatchesResource_iff : ruleMatchesResource r a = true ↔
    a.resourceRequest = true ∧ (r.namespaces = [] ∨ a.ns ∈ r.namespaces) ∧
      (r.resources = [] ∨
        ∃ gr ∈ r.resources, gr.group = a.apiGroup ∧ entryMatches a gr = true) := by
  have hns : ruleMatchesNamespace r a = true ↔ r.namespaces = [] ∨ a.ns ∈ r.namespaces := by
    simp [ruleMatchesNamespace]
  rw [ruleMatchesResource, ← hns]
  cases a.resourceRequest <;> cases ruleMatchesNamespace r a <;> simp

/-- Where no entry overreaches, a rule matches as it is documented to. -/
theorem ruleMatches_iff_documented
    (h : a.resourceRequest = true → ∀ gr ∈ r.resources, gr.group = a.apiGroup → ¬Overreaches a gr) :
    ruleMatches r a = true ↔ RuleDocumented r a := by
  have hentries : ruleMatchesResource r a = true ↔
      a.resourceRequest = true ∧ (r.namespaces = [] ∨ a.ns ∈ r.namespaces) ∧
        (r.resources = [] ∨
          ∃ gr ∈ r.resources, gr.group = a.apiGroup ∧ EntryDocumented a gr) := by
    rw [ruleMatchesResource_iff]
    refine and_congr_right fun ha => and_congr_right fun _ => or_congr_right ?_
    refine exists_congr fun gr => and_congr_right fun hgr => and_congr_right fun hgroup => ?_
    rw [entryMatches_iff]
    exact or_iff_left (h ha gr hgr hgroup)
  have hverb : ruleMatchesVerb r a = true ↔ r.verbs = [] ∨ a.verb ∈ r.verbs := by
    simp [ruleMatchesVerb]
  rw [ruleMatches_iff, ruleMatchesUser_iff, ruleMatchesNonResource_iff, hentries, hverb, and_assoc]
  constructor
  · rintro ⟨husers, hgroups, hverbs, htarget⟩
    exact ⟨husers, hgroups, hverbs, htarget⟩
  · rintro ⟨husers, hgroups, hverbs, htarget⟩
    exact ⟨husers, hgroups, hverbs, htarget⟩

/-- What a policy says about a request: the first rule that matches gives the
    level, and the stages it or the policy names are left out; and a rule, and
    each entry of it, matches as it is documented to. -/
structure AsDocumented (p : Policy) (a : Attributes) : Prop where
  first : ∀ rule, p.rules.find? (ruleMatches · a) = some rule →
    ((newChecker p).levelAndStages a).1 = rule.level ∧
    ∀ s, s ∈ ((newChecker p).levelAndStages a).2 ↔ s ∈ rule.omitStages ∨ s ∈ p.omitStages
  default : p.rules.find? (ruleMatches · a) = none →
    (newChecker p).levelAndStages a = (.none, p.omitStages)
  entries : a.resourceRequest = true → ∀ rule ∈ p.rules, ∀ gr ∈ rule.resources,
    gr.group = a.apiGroup → (entryMatches a gr = true ↔ EntryDocumented a gr)
  rules : ∀ rule ∈ p.rules, (ruleMatches rule a = true ↔ RuleDocumented rule a)

theorem levelAndStages_of_find {p : Policy} {rule : PolicyRule}
    (h : p.rules.find? (ruleMatches · a) = some rule) :
    ((newChecker p).levelAndStages a).1 = rule.level ∧
    ∀ s, s ∈ ((newChecker p).levelAndStages a).2 ↔ s ∈ rule.omitStages ∨ s ∈ p.omitStages := by
  rw [Policy.levelAndStages, find?_newChecker, h]
  exact ⟨rfl, fun s => mem_unionStages.trans or_comm⟩

theorem levelAndStages_of_none {p : Policy} (h : p.rules.find? (ruleMatches · a) = none) :
    (newChecker p).levelAndStages a = (.none, p.omitStages) := by
  rw [Policy.levelAndStages, find?_newChecker, h]
  rfl

/-- A policy means what it says on a request, unless the request is for a
    resource that an entry lists only the subresources of. -/
theorem asDocumented_iff (p : Policy) (a : Attributes) :
    AsDocumented p a ↔
      (a.resourceRequest = true → ∀ rule ∈ p.rules, ∀ gr ∈ rule.resources,
        gr.group = a.apiGroup → ¬Overreaches a gr) := by
  constructor
  · intro h ha rule hrule gr hgr hgroup hover
    have hmatch : entryMatches a gr = true := entryMatches_iff.2 (.inr hover)
    exact hover.not_entryDocumented ((h.entries ha rule hrule gr hgr hgroup).1 hmatch)
  · intro h
    refine ⟨fun _ => levelAndStages_of_find, levelAndStages_of_none, ?_, ?_⟩
    · intro ha rule hrule gr hgr hgroup
      rw [entryMatches_iff]
      exact or_iff_left (h ha rule hrule gr hgr hgroup)
    · intro rule hrule
      exact ruleMatches_iff_documented fun ha => h ha rule hrule

/-- A policy that records what happens to the subresources of pods. -/
def subresourcesPolicy : Policy where
  rules := [{ level := .request, resources := [{ resources := ["pods/*"] }] }]

/-- It records what happens to pods. -/
theorem subresourcesPolicy_overreaches :
    ¬AsDocumented subresourcesPolicy
      { verb := "get", resource := "pods", resourceRequest := true } := by
  intro h
  have := h.entries rfl _ (List.mem_singleton_self _) _ (List.mem_singleton_self _) rfl
  exact absurd (this.1 (by decide)) (by decide)

end Apiserver.Audit
