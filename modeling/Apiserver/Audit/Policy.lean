import Apiserver.Basic
import Apiserver.Go.Strings

/-!
# Audit policies

An audit policy says at which level a request is recorded, and which stages of
its handling are left out (`pkg/audit/policy/checker.go`). Its rules are tried
in order, and the first that matches the attributes of the request decides.

* `ruleMatches_of_resources`: a rule that lists resources matches a request
  when its other fields do and one of the entries has the API group of the
  request, and its resource and name.
-/

namespace Apiserver.Audit

open Go

/-- `Level`. -/
inductive Level
  | none
  | metadata
  | request
  | requestResponse
  deriving DecidableEq, Repr

/-- `Stage`. -/
inductive Stage
  | requestReceived
  | responseStarted
  | responseComplete
  | panic
  deriving DecidableEq, Repr

/-- `GroupResources`. -/
structure GroupResources where
  group : String := ""
  resources : List String := []
  resourceNames : List String := []
  deriving DecidableEq

/-- `PolicyRule`. -/
structure PolicyRule where
  level : Level := .none
  users : List String := []
  userGroups : List String := []
  verbs : List String := []
  resources : List GroupResources := []
  namespaces : List String := []
  nonResourceURLs : List String := []
  omitStages : List Stage := []
  deriving DecidableEq

/-- `Policy`. -/
structure Policy where
  rules : List PolicyRule := []
  omitStages : List Stage := []

/-! ## Matching a rule -/

variable (r : PolicyRule) (a : Attributes)

/-- The checks of `ruleMatches` on the user of a request. -/
def ruleMatchesUser : Bool :=
  (r.users.isEmpty || a.user.any fun user => r.users.contains user.name) &&
    (r.userGroups.isEmpty || a.user.any fun user => user.groups.any r.userGroups.contains)

/-- The check of `ruleMatches` on the verb. -/
def ruleMatchesVerb : Bool := r.verbs.isEmpty || r.verbs.contains a.verb

/-- The check of `ruleMatchesResource` on the namespace. -/
def ruleMatchesNamespace : Bool := r.namespaces.isEmpty || r.namespaces.contains a.ns

/-- `pathMatches`. -/
def pathMatches (path spec : String) : Bool :=
  if spec == "*" then true
  else if spec == path then true
  else hasSuffix spec "*" && hasPrefix path (trimRight spec '*')

/-- `ruleMatchesNonResource`. -/
def ruleMatchesNonResource : Bool :=
  if a.resourceRequest then false else r.nonResourceURLs.any (pathMatches a.path)

/-- A resource of an entry is that of the request: literally, or as `*`,
    `*/subresource` or `resource/*`. -/
def resourceMatches (res : String) : Bool :=
  let combinedResource :=
    if a.subresource ≠ "" then a.resource ++ "/" ++ a.subresource else a.resource
  res == combinedResource || res == "*" ||
    (!a.subresource.isEmpty && hasPrefix res "*/" && a.subresource == trimPrefix res "*/") ||
    (hasSuffix res "/*" && a.resource == trimSuffix res "/*")

/-- The body of the loop of `ruleMatchesResource` over the entries, short of the
    comparison of the group. -/
def entryMatches (gr : GroupResources) : Bool :=
  gr.resources.isEmpty || gr.resources.any fun res =>
    (gr.resourceNames.isEmpty || gr.resourceNames.contains a.name) && resourceMatches a res

/-- `ruleMatchesResource`. -/
def ruleMatchesResource : Bool :=
  if !a.resourceRequest then false
  else if !ruleMatchesNamespace r a then false
  else r.resources.isEmpty || r.resources.any fun gr => gr.group == a.apiGroup && entryMatches a gr

/-- `ruleMatches`. -/
def ruleMatches : Bool :=
  if !ruleMatchesUser r a then false
  else if !ruleMatchesVerb r a then false
  else if !r.namespaces.isEmpty || !r.resources.isEmpty then ruleMatchesResource r a
  else if !r.nonResourceURLs.isEmpty then ruleMatchesNonResource r a
  else true

/-! ## The checker -/

/-- `unionStages` of two lists. The source gives the stages in no particular order. -/
def unionStages (l l' : List Stage) : List Stage := (l ++ l').dedup

/-- `NewChecker`: the stages every rule leaves out are added to those of each. -/
def newChecker (p : Policy) : Policy :=
  { p with rules := p.rules.map fun r =>
      { r with omitStages := unionStages p.omitStages r.omitStages } }

/-- `LevelAndStages` of a checker. -/
def Policy.levelAndStages (p : Policy) (a : Attributes) : Level × List Stage :=
  match p.rules.find? (ruleMatches · a) with
  | some rule => (rule.level, rule.omitStages)
  | none => (.none, p.omitStages)

/-- The fields of a rule other than its entries and its URLs match a resource request. -/
def OthersMatch : Prop :=
  ruleMatchesUser r a = true ∧ ruleMatchesVerb r a = true ∧ ruleMatchesNamespace r a = true

variable {r a}

/-- A rule that lists resources matches a resource request when its other fields
    do, and one of its entries. -/
theorem ruleMatches_of_resources (hr : r.resources ≠ []) (ha : a.resourceRequest = true) :
    ruleMatches r a = true ↔
      OthersMatch r a ∧ ∃ gr ∈ r.resources, gr.group = a.apiGroup ∧ entryMatches a gr = true := by
  have hne : r.resources.isEmpty = false := by simpa using hr
  simp only [ruleMatches, ruleMatchesResource, OthersMatch, hne, ha]
  cases ruleMatchesUser r a <;> cases ruleMatchesVerb r a <;> cases ruleMatchesNamespace r a <;>
    simp

end Apiserver.Audit
