import Apiserver.Abac.Policy

/-!
# The rules of a user, from attribute-based policies

`RulesFor` lists what the policies let a user do in a namespace, as rules for
resources and rules for paths. It is a second reading of the policies next to
`Authorize`, with two differences: it asks for the namespace of a policy before
it looks at either kind of rule, and it leaves out an empty resource or path.

* `rulesFor_eq`: the loop collects the rules of each policy in order;
* `covers_of_resourceRequest`, `covers_of_nonResourceRequest`: a request is
  covered by a rule when a policy matches it and, for a path, is listed
  (`Policy.Listed`);
* `rulesFor_agrees_iff`: so the listing agrees with the decision on every
  resource request, and on a non-resource request unless all policies that match
  it are missing from the listing.
-/

namespace Apiserver.Abac

open Go

/-- `DefaultResourceRuleInfo`. -/
structure ResourceRuleInfo where
  verbs : List String
  apiGroups : List String
  resources : List String
  resourceNames : List String := []
  deriving DecidableEq

/-- `DefaultNonResourceRuleInfo`. -/
structure NonResourceRuleInfo where
  verbs : List String
  nonResourceURLs : List String
  deriving DecidableEq

/-- `getVerbs`. -/
def getVerbs (isReadOnly : Bool) : List String :=
  if isReadOnly then ["get", "list", "watch"] else ["*"]

/-- The variables of `RulesFor`. -/
structure RuleInfos where
  resourceRules : List ResourceRuleInfo := []
  nonResourceRules : List NonResourceRuleInfo := []
  deriving DecidableEq

/-- The rule for the resource of a policy. -/
def Policy.resourceRule (p : Policy) : ResourceRuleInfo where
  verbs := getVerbs p.spec.readonly
  apiGroups := [p.spec.apiGroup]
  resources := [p.spec.resource]

/-- The rule for the path of a policy. -/
def Policy.nonResourceRule (p : Policy) : NonResourceRuleInfo where
  verbs := getVerbs p.spec.readonly
  nonResourceURLs := [p.spec.nonResourcePath]

variable (user : Option UserInfo) (ns : String)

/-- The body of the loop of `RulesFor`. -/
def listPolicy (acc : RuleInfos) (p : Policy) : RuleInfos :=
  if subjectMatches p user then
    if p.spec.ns == "*" || p.spec.ns == ns then
      let acc := if p.spec.resource.isEmpty then acc
        else { acc with resourceRules := acc.resourceRules ++ [p.resourceRule] }
      if p.spec.nonResourcePath.isEmpty then acc
      else { acc with nonResourceRules := acc.nonResourceRules ++ [p.nonResourceRule] }
    else acc
  else acc

/-- `RulesFor` of a policy list: the rules, whether they are incomplete, and an
    error. -/
def rulesFor (pl : List Policy) : RuleInfos × Bool × Option Error :=
  (pl.foldl (listPolicy user ns) {}, false, none)

/-! ## What the rules cover -/

/-- One of the entries of a list matches the value, literally or as `*`. -/
def AnyMatches (fields : List String) (value : String) : Prop :=
  ∃ field ∈ fields, PolicySpec.FieldMatches field value

/-- A URL of a rule matches a path. -/
def URLMatches (url path : String) : Prop :=
  PolicySpec.FieldMatches url path ∨
    (hasSuffix url "*" = true ∧ hasPrefix path (trimRight url '*') = true)

/-- A rule for resources covers a request. -/
def ResourceRuleInfo.Covers (r : ResourceRuleInfo) (a : Attributes) : Prop :=
  a.resourceRequest = true ∧ AnyMatches r.verbs a.verb ∧ AnyMatches r.apiGroups a.apiGroup ∧
    AnyMatches r.resources a.resource

/-- A rule for paths covers a request. -/
def NonResourceRuleInfo.Covers (r : NonResourceRuleInfo) (a : Attributes) : Prop :=
  a.resourceRequest = false ∧ AnyMatches r.verbs a.verb ∧
    ∃ url ∈ r.nonResourceURLs, URLMatches url a.path

/-- One of the rules covers the request. -/
def RuleInfos.Covers (rules : RuleInfos) (a : Attributes) : Prop :=
  (∃ r ∈ rules.resourceRules, r.Covers a) ∨ ∃ r ∈ rules.nonResourceRules, r.Covers a

/-- The policy is listed for its path in the namespace. -/
def Policy.Listed (p : Policy) (ns : String) : Prop :=
  PolicySpec.FieldMatches p.spec.ns ns ∧ p.spec.nonResourcePath ≠ ""

/-! ## The listing in closed form -/

/-- The policy is for the user and the namespace. -/
def inScope (p : Policy) : Bool :=
  subjectMatches p user && (p.spec.ns == "*" || p.spec.ns == ns)

variable {user ns}

/-- What a policy adds to the lists. -/
theorem listPolicy_eq (acc : RuleInfos) (p : Policy) :
    listPolicy user ns acc p =
      { resourceRules := acc.resourceRules ++
          if inScope user ns p && !p.spec.resource.isEmpty then [p.resourceRule] else []
        nonResourceRules := acc.nonResourceRules ++
          if inScope user ns p && !p.spec.nonResourcePath.isEmpty then [p.nonResourceRule]
          else [] } := by
  rw [listPolicy, inScope]
  cases subjectMatches p user <;> cases p.spec.ns == "*" || p.spec.ns == ns <;>
    cases p.spec.resource.isEmpty <;> cases p.spec.nonResourcePath.isEmpty <;> simp

/-- The loop collects the rules of the policies in order. -/
theorem foldl_listPolicy (pl : List Policy) (acc : RuleInfos) :
    pl.foldl (listPolicy user ns) acc =
      { resourceRules := acc.resourceRules ++
          (pl.filter fun p => inScope user ns p && !p.spec.resource.isEmpty).map
            Policy.resourceRule
        nonResourceRules := acc.nonResourceRules ++
          (pl.filter fun p => inScope user ns p && !p.spec.nonResourcePath.isEmpty).map
            Policy.nonResourceRule } := by
  induction pl generalizing acc with
  | nil => simp
  | cons p pl ih =>
    rw [List.foldl_cons, ih, listPolicy_eq]
    simp only [List.filter_cons, List.append_assoc, RuleInfos.mk.injEq]
    constructor <;> congr 1 <;> split_ifs <;> simp

theorem rulesFor_eq (pl : List Policy) :
    (rulesFor user ns pl).1 =
      { resourceRules :=
          (pl.filter fun p => inScope user ns p && !p.spec.resource.isEmpty).map
            Policy.resourceRule
        nonResourceRules :=
          (pl.filter fun p => inScope user ns p && !p.spec.nonResourcePath.isEmpty).map
            Policy.nonResourceRule } :=
  foldl_listPolicy pl {}

/-! ## Listing and decision -/

variable {p : Policy} {a : Attributes}

theorem inScope_iff : inScope user ns p = true ↔
    subjectMatches p user = true ∧ PolicySpec.FieldMatches p.spec.ns ns := by
  simp [inScope, PolicySpec.FieldMatches]

/-- The verbs listed for a policy are those it matches. -/
theorem anyMatches_getVerbs :
    AnyMatches (getVerbs p.spec.readonly) a.verb ↔ verbMatches p a = true := by
  rw [AnyMatches, getVerbs, verbMatches, Attributes.isReadOnly]
  cases p.spec.readonly with
  | false => simp [PolicySpec.FieldMatches]
  | true =>
    simp [PolicySpec.FieldMatches, @eq_comm _ "get" a.verb, @eq_comm _ "list" a.verb,
      @eq_comm _ "watch" a.verb, or_assoc]

theorem anyMatches_singleton {field value : String} :
    AnyMatches [field] value ↔ PolicySpec.FieldMatches field value := by
  simp [AnyMatches]

/-- On a request for a resource with a name, the rule of a policy covers what the
    policy matches in its namespace. -/
theorem resourceRule_covers_iff (ha : a.resourceRequest = true) (hns : a.ns = ns)
    (hr : a.resource ≠ "") :
    (inScope a.user ns p = true ∧ p.spec.resource ≠ "" ∧ p.resourceRule.Covers a) ↔
      policyMatches p a = true := by
  rw [policyMatches, Bool.and_eq_true, Bool.and_eq_true, resourceMatches_or_nonResourceMatches_iff,
    inScope_iff, ResourceRuleInfo.Covers, Policy.resourceRule, anyMatches_getVerbs,
    anyMatches_singleton, anyMatches_singleton, PolicySpec.TargetMatches, ha, hns]
  -- An empty resource would only match an empty one.
  have hne : PolicySpec.FieldMatches p.spec.resource a.resource → p.spec.resource ≠ "" := by
    rintro (h | h) <;> rw [h]
    · decide
    · exact hr
  grind

/-- On a non-resource request, the rule of a policy covers what the policy
    matches, if the policy is listed. -/
theorem nonResourceRule_covers_iff (ha : a.resourceRequest = false) :
    (inScope a.user ns p = true ∧ p.spec.nonResourcePath ≠ "" ∧ p.nonResourceRule.Covers a) ↔
      policyMatches p a = true ∧ p.Listed ns := by
  rw [policyMatches, Bool.and_eq_true, Bool.and_eq_true, resourceMatches_or_nonResourceMatches_iff,
    inScope_iff, NonResourceRuleInfo.Covers, Policy.nonResourceRule, anyMatches_getVerbs,
    PolicySpec.TargetMatches, ha, Policy.Listed]
  simp only [List.mem_singleton, exists_eq_left, URLMatches]
  grind

/-- A request is covered by the rules of the policies in scope. -/
theorem covers_rulesFor_iff {pl : List Policy} :
    (rulesFor user ns pl).1.Covers a ↔
      (∃ p ∈ pl, inScope user ns p = true ∧ p.spec.resource ≠ "" ∧ p.resourceRule.Covers a) ∨
      ∃ p ∈ pl, inScope user ns p = true ∧ p.spec.nonResourcePath ≠ "" ∧
        p.nonResourceRule.Covers a := by
  simp [RuleInfos.Covers, rulesFor_eq, and_assoc]

theorem authorize_allow_iff {pl : List Policy} :
    (authorize pl a).decision = .allow ↔ ∃ p ∈ pl, policyMatches p a = true := by
  rw [authorize, ← List.any_eq_true]
  split_ifs with h <;> simp [h]

theorem covers_of_resourceRequest {pl : List Policy} (ha : a.resourceRequest = true)
    (hns : a.ns = ns) (hr : a.resource ≠ "") :
    (rulesFor a.user ns pl).1.Covers a ↔ ∃ p ∈ pl, policyMatches p a = true := by
  rw [covers_rulesFor_iff]
  simp only [resourceRule_covers_iff ha hns hr]
  refine or_iff_left ?_
  rintro ⟨p, -, -, -, hcov⟩
  rw [hcov.1] at ha
  cases ha

theorem covers_of_nonResourceRequest {pl : List Policy} (ha : a.resourceRequest = false) :
    (rulesFor a.user ns pl).1.Covers a ↔ ∃ p ∈ pl, policyMatches p a = true ∧ p.Listed ns := by
  rw [covers_rulesFor_iff]
  simp only [nonResourceRule_covers_iff ha]
  refine or_iff_right ?_
  rintro ⟨p, -, -, -, hcov⟩
  rw [hcov.1] at ha
  cases ha

/-- The decision on a request agrees with the rules listed for its user in its
    namespace, except on a non-resource request for which a policy speaks and
    none that is listed. -/
theorem rulesFor_agrees_iff (pl : List Policy) (ns : String) (a : Attributes)
    (ha : a.resourceRequest = true → a.ns = ns ∧ a.resource ≠ "") :
    ((authorize pl a).decision = .allow ↔ (rulesFor a.user ns pl).1.Covers a) ↔
      (a.resourceRequest = false → (∃ p ∈ pl, policyMatches p a = true) →
        ∃ p ∈ pl, policyMatches p a = true ∧ p.Listed ns) := by
  rw [authorize_allow_iff]
  cases hres : a.resourceRequest with
  | true =>
    obtain ⟨hns, hr⟩ := ha hres
    rw [covers_of_resourceRequest hres hns hr]
    simp
  | false =>
    rw [covers_of_nonResourceRequest hres]
    constructor
    · exact fun h _ => h.1
    · exact fun h => ⟨h rfl, fun ⟨p, hp, hm, _⟩ => ⟨p, hp, hm⟩⟩

/-- `alice` may read the metrics by a policy that names a namespace. -/
def metricsPolicy : Policy where
  kind := "Policy"
  spec := { user := "alice", ns := "dev", nonResourcePath := "/metrics" }

/-- The request that this policy is for is allowed, and no rule is listed. -/
theorem metricsPolicy_unlisted :
    let a : Attributes := { user := some { name := "alice" }, verb := "get", path := "/metrics" }
    (authorize [metricsPolicy] a).decision = .allow ∧
      ¬(rulesFor a.user a.ns [metricsPolicy]).1.Covers a := by
  intro a
  refine ⟨by decide, ?_⟩
  have hempty : (rulesFor a.user a.ns [metricsPolicy]).1 = {} := by decide
  rw [hempty]
  rintro (⟨r, hr, -⟩ | ⟨r, hr, -⟩) <;> cases hr

/-- In the namespace of the policy the rule is listed. -/
theorem metricsPolicy_listed :
    let a : Attributes := { user := some { name := "alice" }, verb := "get", path := "/metrics" }
    (authorize [metricsPolicy] a).decision = .allow ↔
      (rulesFor a.user "dev" [metricsPolicy]).1.Covers a := by
  intro a
  refine (rulesFor_agrees_iff [metricsPolicy] "dev" a nofun).2 fun _ _ => ?_
  exact ⟨metricsPolicy, List.mem_singleton_self _, by decide, .inr rfl, by decide⟩

end Apiserver.Abac
