import Apiserver.Authentication.ServiceAccount
import Apiserver.Basic

/-!
# Roles and bindings

The objects of role based access control (`pkg/apis/rbac`), and when a rule
covers a request (`RuleAllows` of `plugin/authorizer/rbac`). Of the metadata of
an object, only its name and namespace are kept: nothing else is read.

A `Role` is namespaced and a `ClusterRole` is not; a binding gives the rules of
the role it refers to to its subjects.

* `ruleAllows_resource_iff`: the resources and subresources a rule is about.
-/

namespace Apiserver.Rbac

open Go

/-! ## Objects -/

/-- `PolicyRule`: the requests a role allows. -/
structure PolicyRule where
  verbs : List String := []
  apiGroups : List String := []
  resources : List String := []
  resourceNames : List String := []
  nonResourceURLs : List String := []
  deriving DecidableEq

/-- `Subject`: a user, a group or a service account, by its kind. -/
structure Subject where
  kind : String
  apiGroup : String := ""
  name : String
  ns : String := ""
  deriving DecidableEq

/-- `RoleRef`: the role a binding refers to. -/
structure RoleRef where
  apiGroup : String := ""
  kind : String
  name : String
  deriving DecidableEq

/-- The part of `ObjectMeta` that is read. -/
structure ObjectMeta where
  name : String
  ns : String := ""
  deriving DecidableEq

structure Role extends ObjectMeta where
  rules : List PolicyRule
  deriving DecidableEq

structure ClusterRole extends ObjectMeta where
  rules : List PolicyRule
  deriving DecidableEq

structure RoleBinding extends ObjectMeta where
  subjects : List Subject
  roleRef : RoleRef
  deriving DecidableEq

structure ClusterRoleBinding extends ObjectMeta where
  subjects : List Subject
  roleRef : RoleRef
  deriving DecidableEq

def groupKind : String := "Group"
def serviceAccountKind : String := "ServiceAccount"
def userKind : String := "User"

/-! ## Rules and requests -/

/-- `VerbMatches`. -/
def verbMatches (rule : PolicyRule) (requestedVerb : String) : Bool :=
  rule.verbs.any fun ruleVerb => ruleVerb == "*" || ruleVerb == requestedVerb

/-- `ResourceMatches`: a rule resource is `*`, the requested resource (with its
    subresource), or `*/` and the requested subresource. -/
def resourceMatches (rule : PolicyRule) (combinedRequestedResource requestedSubresource : String) :
    Bool :=
  rule.resources.any fun ruleResource =>
    ruleResource == "*" || ruleResource == combinedRequestedResource ||
      (!requestedSubresource.isEmpty &&
        ruleResource.length == requestedSubresource.length + 2 &&
        hasPrefix ruleResource "*/" && hasSuffix ruleResource requestedSubresource)

/-- `ResourceNameMatches`. -/
def resourceNameMatches (rule : PolicyRule) (requestedName : String) : Bool :=
  rule.resourceNames.isEmpty || rule.resourceNames.any fun ruleName => ruleName == requestedName

/-- `NonResourceURLMatches`. -/
def nonResourceURLMatches (rule : PolicyRule) (requestedURL : String) : Bool :=
  rule.nonResourceURLs.any fun ruleURL =>
    ruleURL == "*" || ruleURL == requestedURL ||
      (hasSuffix ruleURL "*" && hasPrefix requestedURL (trimRight ruleURL '*'))

/-- `RuleAllows`. The API group of the request is not compared: the line doing
    so is commented out in the source. -/
def ruleAllows (a : Attributes) (rule : PolicyRule) : Bool :=
  if a.resourceRequest then
    let combinedResource :=
      if a.subresource.isEmpty then a.resource else a.resource ++ "/" ++ a.subresource
    verbMatches rule a.verb && resourceMatches rule combinedResource a.subresource &&
      resourceNameMatches rule a.name
  else
    verbMatches rule a.verb && nonResourceURLMatches rule a.path

/-- What a resource of a rule means: all resources, one resource, one subresource of
    it, or a subresource of any resource. -/
def Covers (ruleResource resource subresource : String) : Prop :=
  ruleResource = "*" ∨ (subresource = "" ∧ ruleResource = resource) ∨
    (subresource ≠ "" ∧
      (ruleResource = resource ++ "/" ++ subresource ∨ ruleResource = "*/" ++ subresource))

/-- The length, the first two characters and the end determine a string like
    `*/status`. -/
theorem anyResource_iff {ruleResource subresource : String} :
    (ruleResource.length == subresource.length + 2 && hasPrefix ruleResource "*/" &&
      hasSuffix ruleResource subresource) = true ↔ ruleResource = "*/" ++ subresource := by
  simp only [Bool.and_eq_true, beq_iff_eq, hasPrefix_iff, hasSuffix_iff]
  constructor
  · rintro ⟨⟨hlength, t, rfl⟩, pre, happend⟩
    have ht : t.length = subresource.length := by
      rw [String.length_append] at hlength
      have : "*/".length = 2 := rfl
      omega
    have hlist : "*/".toList ++ t.toList = pre.toList ++ subresource.toList := by
      rw [← String.toList_append, happend, String.toList_append]
    rw [String.toList_inj.1 (List.append_inj_right' hlist ht)]
  · rintro rfl
    refine ⟨⟨?_, subresource, rfl⟩, "*/", rfl⟩
    rw [String.length_append, Nat.add_comm]
    rfl

/-- `ResourceMatches` as `RuleAllows` calls it. -/
theorem resourceMatches_iff {rule : PolicyRule} {resource subresource : String} :
    resourceMatches rule
        (if subresource.isEmpty then resource else resource ++ "/" ++ subresource) subresource =
        true ↔
      ∃ ruleResource ∈ rule.resources, Covers ruleResource resource subresource := by
  rw [resourceMatches, List.any_eq_true]
  refine exists_congr fun ruleResource => and_congr_right fun _ => ?_
  rw [Covers, Bool.or_eq_true, Bool.or_eq_true, Bool.and_assoc, Bool.and_assoc, ← Bool.and_assoc
    (ruleResource.length == _), Bool.and_eq_true, anyResource_iff]
  by_cases hsub : subresource = ""
  · simp [hsub]
  · have hempty : subresource.isEmpty = false := by simpa using hsub
    simp [hsub, hempty, or_assoc]

theorem append_slash_ne (resource subresource : String) :
    resource ++ "/" ++ subresource ≠ resource := by
  intro h
  have hlength := congrArg String.length h
  rw [String.length_append, String.length_append, show "/".length = 1 from rfl] at hlength
  omega

/-- A resource does not cover its subresources. -/
theorem not_covers_subresource {resource subresource : String} (hstar : resource ≠ "*")
    (hslash : '/' ∉ resource.toList) (hsub : subresource ≠ "") :
    ¬Covers resource resource subresource := by
  rintro (hany | ⟨hnil, -⟩ | ⟨-, hself | hall⟩)
  · exact hstar hany
  · exact hsub hnil
  · exact append_slash_ne resource subresource hself.symm
  · rw [hall] at hslash
    simp at hslash

/-- A subresource does not cover the resource it is of. -/
theorem not_covers_resource (resource subresource : String) :
    ¬Covers (resource ++ "/" ++ subresource) resource "" := by
  rintro (hany | ⟨-, hself⟩ | ⟨hne, -⟩)
  · have hmem : '/' ∈ (resource ++ "/" ++ subresource).toList := by simp
    rw [hany] at hmem
    exact absurd hmem (by decide)
  · exact append_slash_ne resource subresource hself
  · exact hne rfl

/-- What a rule says about the resource of a request. A rule for a resource says
    nothing about its subresources, and a rule for a subresource nothing about the
    resource. -/
theorem ruleAllows_resource_iff (rule : PolicyRule) (a : Attributes)
    (ha : a.resourceRequest = true) :
    (ruleAllows a rule = true ↔ verbMatches rule a.verb = true ∧
      (∃ ruleResource ∈ rule.resources, Covers ruleResource a.resource a.subresource) ∧
      resourceNameMatches rule a.name = true) ∧
    (rule.resources = [a.resource] → a.resource ≠ "*" → '/' ∉ a.resource.toList →
      a.subresource ≠ "" → ruleAllows a rule = false) ∧
    ∀ subresource, rule.resources = [a.resource ++ "/" ++ subresource] → a.subresource = "" →
      ruleAllows a rule = false := by
  have hiff : ruleAllows a rule = true ↔ verbMatches rule a.verb = true ∧
      (∃ ruleResource ∈ rule.resources, Covers ruleResource a.resource a.subresource) ∧
      resourceNameMatches rule a.name = true := by
    rw [ruleAllows, if_pos ha, Bool.and_eq_true, Bool.and_eq_true, resourceMatches_iff, and_assoc]
  have hsingle : ∀ ruleResource, rule.resources = [ruleResource] →
      ¬Covers ruleResource a.resource a.subresource → ruleAllows a rule = false := by
    intro ruleResource hrule hnot
    rw [← Bool.not_eq_true, hiff, hrule]
    rintro ⟨-, ⟨_, hmem, hcovers⟩, -⟩
    rw [List.mem_singleton.1 hmem] at hcovers
    exact hnot hcovers
  refine ⟨hiff, fun hrule hstar hslash hsub => ?_, fun subresource hrule hsub => ?_⟩
  · exact hsingle _ hrule (not_covers_subresource hstar hslash hsub)
  · refine hsingle _ hrule ?_
    rw [hsub]
    exact not_covers_resource _ _

theorem ruleAllows_resource_iff_pods_log :
    let rule : PolicyRule := { verbs := ["get"], resources := ["pods", "*/status"] }
    let a : Attributes :=
      { verb := "get", resource := "pods", subresource := "log", resourceRequest := true }
    ruleAllows a rule = true ↔ verbMatches rule a.verb = true ∧
      (∃ ruleResource ∈ rule.resources, Covers ruleResource a.resource a.subresource) ∧
      resourceNameMatches rule a.name = true :=
  (ruleAllows_resource_iff _ _ rfl).1

/-- `RulesAllow`. -/
def rulesAllow (a : Attributes) (rules : List PolicyRule) : Bool :=
  rules.any (ruleAllows a)

/-- A rule that allows every request. -/
def allowAll : PolicyRule where
  verbs := ["*"]
  resources := ["*"]
  nonResourceURLs := ["*"]

theorem ruleAllows_allowAll (a : Attributes) : ruleAllows a allowAll = true := by
  rw [ruleAllows]
  split_ifs <;>
    simp [allowAll, verbMatches, resourceMatches, resourceNameMatches, nonResourceURLMatches]

/-! ## Subjects and users -/

/-- `appliesToUser`. The namespace of a service account defaults to `ns`, the
    one the request is in. -/
def appliesToUser (user : UserInfo) (subject : Subject) (ns : String) : Bool :=
  if subject.kind = userKind then user.name == subject.name
  else if subject.kind = groupKind then user.groups.contains subject.name
  else if subject.kind = serviceAccountKind then
    let saNamespace := if subject.ns.isEmpty then ns else subject.ns
    if saNamespace.isEmpty then false
    else ServiceAccount.matchesUsername saNamespace subject.name user.name
  else false

/-- `appliesTo`: the index of the first subject that applies to the user. -/
def appliesTo (user : UserInfo) (bindingSubjects : List Subject) (ns : String) :
    Option (Fin bindingSubjects.length) :=
  bindingSubjects.findFinIdx? fun s => appliesToUser user s ns

theorem appliesTo_isSome {user : UserInfo} {subjects : List Subject} {ns : String} :
    (appliesTo user subjects ns).isSome = true ↔
      ∃ s ∈ subjects, appliesToUser user s ns = true := by
  rw [appliesTo, List.isSome_findFinIdx?, List.any_eq_true]

theorem appliesTo_eq_none {user : UserInfo} {subjects : List Subject} {ns : String} :
    appliesTo user subjects ns = none ↔ ¬∃ s ∈ subjects, appliesToUser user s ns = true := by
  rw [← appliesTo_isSome, Option.not_isSome_iff_eq_none]

end Apiserver.Rbac
