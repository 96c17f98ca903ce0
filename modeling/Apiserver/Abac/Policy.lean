import Apiserver.Basic
import Apiserver.Go.Strings

/-!
# Attribute-based policies

A policy of the ABAC authorizer (`plugin/authorizer/abac`) names a user or a
group, and what they may do: requests for a resource of an API group in a
namespace, or for a path.

* `policyMatches_iff`: the matchers of the authorizer decide what the
  documentation of the fields says (`PolicySpec.Grants`);
* `PolicySpec.grants_request`: a policy that names a user or a group grants some
  request.
-/

namespace Apiserver.Abac

open Go

/-- `PolicySpec`; `ns` is the namespace. -/
structure PolicySpec where
  user : String := ""
  group : String := ""
  readonly : Bool := false
  apiGroup : String := ""
  resource : String := ""
  ns : String := ""
  nonResourcePath : String := ""
  deriving DecidableEq

/-- `Policy`. -/
structure Policy where
  kind : String := ""
  spec : PolicySpec := {}
  deriving DecidableEq

variable (p : Policy) (a : Attributes)

/-! ## The matchers -/

/-- `subjectMatches`. -/
def subjectMatches (user : Option UserInfo) : Bool :=
  match user with
  | none => false
  | some user =>
    if !p.spec.user.isEmpty && !(p.spec.user == "*" || p.spec.user == user.name) then false
    else if p.spec.group.isEmpty then !p.spec.user.isEmpty
    else p.spec.group == "*" || user.groups.contains p.spec.group

/-- `verbMatches`. -/
def verbMatches : Bool :=
  if a.isReadOnly then true
  else if !p.spec.readonly then true
  else false

/-- `nonResourceMatches`. -/
def nonResourceMatches : Bool :=
  if !a.resourceRequest then
    if p.spec.nonResourcePath == "*" then true
    else if p.spec.nonResourcePath == a.path then true
    else hasSuffix p.spec.nonResourcePath "*" &&
      hasPrefix a.path (trimRight p.spec.nonResourcePath '*')
  else false

/-- `resourceMatches`. -/
def resourceMatches : Bool :=
  if a.resourceRequest then
    (p.spec.ns == "*" || p.spec.ns == a.ns) &&
      (p.spec.resource == "*" || p.spec.resource == a.resource) &&
        (p.spec.apiGroup == "*" || p.spec.apiGroup == a.apiGroup)
  else false

/-- `matches`. -/
def policyMatches : Bool :=
  subjectMatches p a.user && (verbMatches p a && (resourceMatches p a || nonResourceMatches p a))

/-- `Authorize` of a policy list. -/
def authorize (pl : List Policy) : Authorizer := fun a =>
  if pl.any (policyMatches · a) then { decision := .allow }
  else { decision := .noOpinion, reason := "No policy matched." }

/-! ## What a policy says -/

namespace PolicySpec

variable (s : PolicySpec)

/-- A field matches a value literally, or as `*`. -/
def FieldMatches (field value : String) : Prop := field = "*" ∨ field = value

/-- The policy names a user or a group. -/
def NamesSubject : Prop := s.user ≠ "" ∨ s.group ≠ ""

/-- The policy names something to match. -/
def NamesTarget : Prop := s.apiGroup ≠ "" ∨ s.resource ≠ "" ∨ s.ns ≠ "" ∨ s.nonResourcePath ≠ ""

/-- Each of the user and the group that the policy names is that of the requester. -/
def SubjectMatches (user : UserInfo) : Prop :=
  (s.user ≠ "" → FieldMatches s.user user.name) ∧
    (s.group ≠ "" → s.group = "*" ∨ s.group ∈ user.groups)

/-- The policy covers what the request is for. A path may end in `*`, and then
    stands for all paths below it. -/
def TargetMatches : Prop :=
  (a.resourceRequest = true ∧ FieldMatches s.ns a.ns ∧ FieldMatches s.resource a.resource ∧
    FieldMatches s.apiGroup a.apiGroup) ∨
  (a.resourceRequest = false ∧ (FieldMatches s.nonResourcePath a.path ∨
    (hasSuffix s.nonResourcePath "*" = true ∧
      hasPrefix a.path (trimRight s.nonResourcePath '*') = true)))

/-- The policy as written grants the request. -/
structure Grants : Prop where
  namesSubject : s.NamesSubject
  subject : ∃ user, a.user = some user ∧ s.SubjectMatches user
  verb : s.readonly = true → a.isReadOnly = true
  target : s.TargetMatches a

end PolicySpec

variable {p a}

theorem subjectMatches_iff {user : UserInfo} :
    subjectMatches p (some user) = true ↔ p.spec.NamesSubject ∧ p.spec.SubjectMatches user := by
  rw [subjectMatches]
  simp only [PolicySpec.NamesSubject, PolicySpec.SubjectMatches, PolicySpec.FieldMatches,
    String.isEmpty_iff]
  by_cases hu : p.spec.user = "" <;> by_cases hg : p.spec.group = "" <;>
    by_cases hm : p.spec.user = "*" ∨ p.spec.user = user.name <;> simp_all

theorem resourceMatches_or_nonResourceMatches_iff :
    (resourceMatches p a || nonResourceMatches p a) = true ↔ p.spec.TargetMatches a := by
  rw [resourceMatches, nonResourceMatches, PolicySpec.TargetMatches]
  simp only [PolicySpec.FieldMatches]
  cases a.resourceRequest with
  | true => simp [and_assoc]
  | false =>
    by_cases h₁ : p.spec.nonResourcePath = "*"
    · simp [h₁]
    · by_cases h₂ : p.spec.nonResourcePath = a.path <;> simp [h₁, h₂]

/-- The matchers decide what the fields of the policy say. -/
theorem policyMatches_iff : policyMatches p a = true ↔ p.spec.Grants a := by
  rw [policyMatches, Bool.and_eq_true, Bool.and_eq_true, resourceMatches_or_nonResourceMatches_iff]
  have hverb : verbMatches p a = true ↔ (p.spec.readonly = true → a.isReadOnly = true) := by
    rw [verbMatches]
    cases a.isReadOnly <;> cases p.spec.readonly <;> simp
  rw [hverb]
  cases hu : a.user with
  | none =>
    refine ⟨fun h => absurd h.1 nofun, fun h => ?_⟩
    obtain ⟨user, hu', -⟩ := h.subject
    rw [hu] at hu'
    cases hu'
  | some user =>
    rw [subjectMatches_iff]
    constructor
    · rintro ⟨⟨hn, hs⟩, hv, ht⟩
      exact ⟨hn, ⟨user, hu, hs⟩, hv, ht⟩
    · rintro ⟨hn, ⟨user', hu', hs⟩, hv, ht⟩
      cases hu.symm.trans hu'
      exact ⟨⟨hn, hs⟩, hv, ht⟩

/-- A request by the user and the group of a policy, for exactly what it names. -/
def PolicySpec.request (s : PolicySpec) : Attributes where
  user := some { name := s.user, groups := [s.group] }
  verb := "get"
  ns := s.ns
  apiGroup := s.apiGroup
  resource := s.resource
  resourceRequest := true

/-- A policy that names a user or a group grants some request. -/
theorem PolicySpec.grants_request {s : PolicySpec} (h : s.NamesSubject) : s.Grants s.request where
  namesSubject := h
  subject := ⟨_, rfl, fun _ => .inr rfl, fun _ => .inr List.mem_cons_self⟩
  verb _ := rfl
  target := .inl ⟨rfl, .inr rfl, .inr rfl, .inr rfl⟩

end Apiserver.Abac
