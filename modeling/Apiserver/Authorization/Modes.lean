import Apiserver.Basic
import Apiserver.Go.Strings

/-!
# The configured authorizer

The authorizer of a server is the union of the authorizers of its configured
modes and of two more: one for the users in `AlwaysAllowGroups`, one for the
paths in `AlwaysAllowPaths` (`pkg/authorization`). The union asks its members
in order and returns the first answer that is an opinion.

* `union_eq`: the answer of a union is that of its first decisive member;
* `newPathAuthorizer_spec`: the path authorizer allows the paths that match one
  of its patterns, and has no opinion on the others;
* `initAuthorization_eq`: the two extra members are asked last;
* `unconditional_iff`: so what is always allowed is allowed exactly when no
  mode denies it first.
-/

namespace Apiserver.Authorization

open Go

variable (d : Deps)

/-! ## Unions -/

/-- The loop of `Authorize` of a union, with the reasons and errors so far. -/
def unionLoop (a : Attributes) : List Authorizer → List Error → List String → Answer
  | [], errlist, reasonlist =>
    { decision := .noOpinion
      reason := join reasonlist "\n"
      err := d.newAggregate errlist }
  | authz :: l, errlist, reasonlist =>
    let answer := authz a
    let errlist := errlist ++ answer.err.toList
    let reasonlist := if answer.reason.isEmpty then reasonlist else reasonlist ++ [answer.reason]
    match answer.decision with
    | .allow | .deny => answer
    | .noOpinion => unionLoop a l errlist reasonlist

/-- `union.New`. -/
def union (l : List Authorizer) : Authorizer := fun a => unionLoop d a l [] []

/-- The first answer that is an opinion. -/
def decisive (l : List Authorizer) (a : Attributes) : Option Answer :=
  (l.map (· a)).find? (·.decision ≠ .noOpinion)

/-- The reasons given by the members, the empty ones left out. -/
def reasons (l : List Authorizer) (a : Attributes) : List String :=
  (l.map fun authz => (authz a).reason).filter (! ·.isEmpty)

/-- The errors met by the members. -/
def errors (l : List Authorizer) (a : Attributes) : List Error :=
  (l.map fun authz => (authz a).err).flatMap Option.toList

/-- The first decision counts; without one, errors and reasons are joined. -/
theorem unionLoop_eq (a : Attributes) (l : List Authorizer) (errlist : List Error)
    (reasonlist : List String) :
    unionLoop d a l errlist reasonlist = (decisive l a).getD
      { decision := .noOpinion
        reason := join (reasonlist ++ reasons l a) "\n"
        err := d.newAggregate (errlist ++ errors l a) } := by
  induction l generalizing errlist reasonlist with
  | nil => simp [unionLoop, decisive, reasons, errors]
  | cons authz l ih =>
    have hreasons : reasons (authz :: l) a =
        (if (authz a).reason.isEmpty then [] else [(authz a).reason]) ++ reasons l a := by
      rw [reasons, List.map_cons, List.filter_cons]
      cases (authz a).reason.isEmpty <;> rfl
    have herrors : errors (authz :: l) a = (authz a).err.toList ++ errors l a := rfl
    rw [unionLoop]
    cases hdec : (authz a).decision with
    | noOpinion =>
      have : decisive (authz :: l) a = decisive l a := by simp [decisive, hdec]
      dsimp only
      rw [ih, this, hreasons, herrors, List.append_assoc]
      split_ifs <;> simp
    | allow => simp [decisive, hdec]
    | deny => simp [decisive, hdec]

/-- A union answers what its first decisive member answers. If there is none it
    has no opinion either, for all their reasons and with all their errors. -/
theorem union_eq (l : List Authorizer) (a : Attributes) :
    union d l a = (decisive l a).getD
      { decision := .noOpinion
        reason := join (reasons l a) "\n"
        err := d.newAggregate (errors l a) } :=
  unionLoop_eq d a l [] []

theorem decisive_append (l l' : List Authorizer) (a : Attributes) :
    decisive (l ++ l') a = (decisive l a).or (decisive l' a) := by
  rw [decisive, List.map_append, List.find?_append]
  rfl

theorem reasons_append (l l' : List Authorizer) (a : Attributes) :
    reasons (l ++ l') a = reasons l a ++ reasons l' a := by
  simp [reasons]

theorem errors_append (l l' : List Authorizer) (a : Attributes) :
    errors (l ++ l') a = errors l a ++ errors l' a := by
  simp [errors]

/-- Asking more members after the decisive one changes nothing. -/
theorem union_append_of_decisive {l : List Authorizer} {a : Attributes} {answer : Answer}
    (h : decisive l a = some answer) (l' : List Authorizer) : union d (l ++ l') a = answer := by
  rw [union_eq, decisive_append, h]
  rfl

/-! ## Groups and paths that are always allowed -/

/-- `privilegedGroupAuthorizer`. -/
def newPrivilegedGroups (groups : List String) : Authorizer := fun a =>
  match a.user with
  | none => { decision := .noOpinion, reason := "Error", err := some "no user on request." }
  | some user =>
    if user.groups.any fun attrGroup => groups.any (· == attrGroup) then { decision := .allow }
    else { decision := .noOpinion }

/-- The loop of `path.NewAuthorizer`: the prefixes and the plain paths. -/
def loadPaths : List String → Except Error (List String × List String)
  | [] => .ok ([], [])
  | p :: l =>
    let p := trimPrefix p "/"
    if p.isEmpty then (loadPaths l).map fun (prefixes, paths) => (prefixes, p :: paths)
    else if containsRune (String.ofList p.toList.dropLast) '*' then
      .error ("only trailing * allowed in " ++ d.quote p)
    else if hasSuffix p "*" then
      (loadPaths l).map fun (prefixes, paths) =>
        (String.ofList p.toList.dropLast :: prefixes, paths)
    else (loadPaths l).map fun (prefixes, paths) => (prefixes, p :: paths)

/-- The authorizer `path.NewAuthorizer` returns. -/
def pathAuthorizer (prefixes paths : List String) : Authorizer := fun a =>
  if a.resourceRequest then { decision := .noOpinion }
  else
    let pth := trimPrefix a.path "/"
    if paths.contains pth then { decision := .allow }
    else if prefixes.any (hasPrefix pth) then { decision := .allow }
    else { decision := .noOpinion }

/-- `path.NewAuthorizer`. -/
def newPathAuthorizer (alwaysAllowPaths : List String) : Except Error Authorizer :=
  (loadPaths d alwaysAllowPaths).map fun (prefixes, paths) => pathAuthorizer prefixes paths

/-- A pattern is a plain path, or ends in `*` and matches what begins as it
    does. A leading slash is optional, on both sides. -/
def PathMatches (pattern path : String) : Prop :=
  trimPrefix path "/" = trimPrefix pattern "/" ∨
    ∃ stem, trimPrefix pattern "/" = stem ++ "*" ∧ hasPrefix (trimPrefix path "/") stem = true

/-- A pattern that does not end in `*` matches the path it is. -/
theorem pathMatches_plain {p path : String} (hp : hasSuffix (trimPrefix p "/") "*" = false) :
    PathMatches p path ↔ trimPrefix path "/" = trimPrefix p "/" := by
  refine or_iff_left ?_
  rintro ⟨stem, hstem, -⟩
  rw [hasSuffix_iff.2 ⟨stem, hstem⟩] at hp
  cases hp

/-- One that does matches the paths that begin with what is before it, and those
    include the pattern itself. -/
theorem pathMatches_star {p path stem : String} (hp : trimPrefix p "/" = stem ++ "*") :
    PathMatches p path ↔ hasPrefix (trimPrefix path "/") stem = true := by
  constructor
  · rintro (heq | ⟨stem', hstem', hs⟩)
    · rw [heq, hp]
      exact hasPrefix_append _ _
    · rw [hp, ← String.toList_inj] at hstem'
      have heq : stem' = stem := by
        rw [← String.toList_inj]
        simpa using hstem'.symm
      rwa [← heq]
  · exact fun hs => .inr ⟨stem, hp, hs⟩

/-- The sets and prefixes that are loaded stand for the paths. -/
theorem loadPaths_spec {l prefixes paths : List String} (h : loadPaths d l = .ok (prefixes, paths))
    (path : String) :
    (trimPrefix path "/" ∈ paths ∨ ∃ stem ∈ prefixes, hasPrefix (trimPrefix path "/") stem = true) ↔
      ∃ p ∈ l, PathMatches p path := by
  induction l generalizing prefixes paths with
  | nil =>
    rw [loadPaths] at h
    cases h
    simp
  | cons p l ih =>
    rw [loadPaths] at h
    dsimp only at h
    rw [List.exists_mem_cons_iff]
    -- A plain path goes to the paths, whether or not it is empty.
    have plain (hp : hasSuffix (trimPrefix p "/") "*" = false)
        (h : (loadPaths d l).map (fun (prefixes, paths) => (prefixes, trimPrefix p "/" :: paths)) =
          .ok (prefixes, paths)) :
        (trimPrefix path "/" ∈ paths ∨
          ∃ stem ∈ prefixes, hasPrefix (trimPrefix path "/") stem = true) ↔
        PathMatches p path ∨ ∃ p ∈ l, PathMatches p path := by
      obtain ⟨⟨prefixes', paths'⟩, hl, heq⟩ := map_eq_ok h
      cases heq
      rw [← ih hl, pathMatches_plain hp, List.mem_cons, or_assoc]
    split_ifs at h with hempty hstar hsuffix
    · refine plain ?_ h
      rw [String.isEmpty_iff.1 hempty]
      rfl
    · obtain ⟨stem, hstem⟩ := hasSuffix_iff.1 hsuffix
      obtain ⟨⟨prefixes', paths'⟩, hl, heq⟩ := map_eq_ok h
      cases heq
      have hdrop : String.ofList (trimPrefix p "/").toList.dropLast = stem := by
        simp [hstem]
      rw [← ih hl, pathMatches_star hstem, List.exists_mem_cons_iff, or_left_comm, hdrop]
    · exact plain (by simpa using hsuffix) h

/-- The path authorizer allows the non-resource requests whose path matches a
    pattern, and has no opinion on the others. -/
theorem newPathAuthorizer_spec {l : List String} {authz : Authorizer}
    (h : newPathAuthorizer d l = .ok authz) (a : Attributes) :
    ((a.resourceRequest = false ∧ ∃ p ∈ l, PathMatches p a.path) ∧
      authz a = { decision := .allow }) ∨
    (¬ (a.resourceRequest = false ∧ ∃ p ∈ l, PathMatches p a.path) ∧
      authz a = { decision := .noOpinion }) := by
  obtain ⟨⟨prefixes, paths⟩, hl, heq⟩ := map_eq_ok h
  have heq : pathAuthorizer prefixes paths = authz := heq
  rw [← loadPaths_spec d hl a.path, ← heq, pathAuthorizer]
  cases a.resourceRequest with
  | true => simp
  | false =>
    by_cases hp : trimPrefix a.path "/" ∈ paths
    · simp [hp]
    · simp only [hp, false_or, true_and, Bool.false_eq_true, ↓reduceIte,
        List.contains_eq_mem, decide_false, List.any_eq_true]
      by_cases hs : ∃ stem ∈ prefixes, hasPrefix (trimPrefix a.path "/") stem = true
      · simp [hs]
      · simp [hs]

/-! ## Building the authorizer -/

/-- The configuration of the module. -/
structure Config where
  modes : List String := []
  alwaysAllowPaths : List String := []
  alwaysAllowGroups : List String := []

/-- A factory a mode is registered with: nil, or a function that returns an
    authorizer or fails. -/
abbrev Factory := Option (Except Error Authorizer)

/-- The loop of `initAuthorization` over the configured modes. -/
def loadModes (factories : AList fun _ : String => Factory) :
    List String → Except Error (List Authorizer)
  | [] => .ok []
  | mode :: l => match factories.lookup mode with
    | none => .error ("unknown authz." ++ mode ++ " specified")
    | some none => loadModes factories l
    | some (some (.error err)) => .error ("authz." ++ mode ++ " error " ++ err)
    | some (some (.ok authz)) => (loadModes factories l).map (authz :: ·)

/-- `initAuthorization`. -/
def initAuthorization (factories : AList fun _ : String => Factory) (c : Config) :
    Except Error Authorizer :=
  if c.modes = [] then .error "at least one authz mode must be passed"
  else match loadModes factories c.modes with
    | .error err => .error err
    | .ok authorizers =>
      let authorizers :=
        if c.alwaysAllowGroups = [] then authorizers
        else authorizers ++ [newPrivilegedGroups c.alwaysAllowGroups]
      if c.alwaysAllowPaths = [] then .ok (union d authorizers)
      else match newPathAuthorizer d c.alwaysAllowPaths with
        | .error err => .error err
        | .ok authz => .ok (union d (authorizers ++ [authz]))

namespace Config

variable (c : Config) (a : Attributes)

/-- The request is made by a user in one of the groups allowed any action. -/
def Privileged : Prop := ∃ user, a.user = some user ∧ ∃ g ∈ user.groups, g ∈ c.alwaysAllowGroups

/-- The request is for a path that is excluded from authorization. -/
def Excluded : Prop := a.resourceRequest = false ∧ ∃ p ∈ c.alwaysAllowPaths, PathMatches p a.path

/-- The request is always allowed. -/
def AlwaysAllowed : Prop := c.Privileged a ∨ c.Excluded a

/-- The configuration is unconditional for a request: it is allowed if it is
    always allowed, and otherwise up to the modes alone. -/
def Unconditional (modes : List Authorizer) (authz : Authorizer) : Prop :=
  (c.AlwaysAllowed a → (authz a).decision = .allow) ∧
    (¬ c.AlwaysAllowed a → authz a = union d modes a)

end Config

/-- The member of the union for the groups, if there are any. -/
def Config.groupMembers (c : Config) : List Authorizer :=
  if c.alwaysAllowGroups = [] then [] else [newPrivilegedGroups c.alwaysAllowGroups]

/-- The two extra members are asked after the modes. -/
theorem initAuthorization_eq {factories : AList fun _ : String => Factory} {c : Config}
    {modes : List Authorizer} {authz : Authorizer} (hm : loadModes factories c.modes = .ok modes)
    (h : initAuthorization d factories c = .ok authz) :
    ∃ pathMembers, authz = union d (modes ++ (c.groupMembers ++ pathMembers)) ∧
      ((c.alwaysAllowPaths = [] ∧ pathMembers = []) ∨
        ∃ pathAuthz, newPathAuthorizer d c.alwaysAllowPaths = .ok pathAuthz ∧
          pathMembers = [pathAuthz]) := by
  have hgroups : (if c.alwaysAllowGroups = [] then modes
      else modes ++ [newPrivilegedGroups c.alwaysAllowGroups]) = modes ++ c.groupMembers := by
    rw [Config.groupMembers]
    split_ifs <;> simp
  rw [initAuthorization] at h
  by_cases h₀ : c.modes = []
  · rw [if_pos h₀] at h
    cases h
  rw [if_neg h₀, hm] at h
  dsimp only at h
  rw [hgroups] at h
  split_ifs at h with hpaths
  · cases h
    exact ⟨[], by rw [List.append_nil], .inl ⟨hpaths, rfl⟩⟩
  · split at h
    · cases h
    case h_2 pathAuthz hp =>
      cases h
      exact ⟨[pathAuthz], by rw [List.append_assoc], .inr ⟨pathAuthz, hp, rfl⟩⟩

section Members

variable {d} {c : Config} {a : Attributes} {pathMembers : List Authorizer}
  (hp : (c.alwaysAllowPaths = [] ∧ pathMembers = []) ∨
    ∃ pathAuthz, newPathAuthorizer d c.alwaysAllowPaths = .ok pathAuthz ∧
      pathMembers = [pathAuthz])

theorem newPrivilegedGroups_spec (groups : List String) {user : UserInfo}
    (hu : a.user = some user) :
    newPrivilegedGroups groups a =
      if ∃ g ∈ user.groups, g ∈ groups then { decision := .allow }
      else { decision := .noOpinion } := by
  have : (user.groups.any fun attrGroup => groups.any (· == attrGroup)) = true ↔
      ∃ g ∈ user.groups, g ∈ groups := by
    simp
  simp only [newPrivilegedGroups, hu, this]

theorem decisive_groupMembers_of_privileged (h : c.Privileged a) :
    decisive c.groupMembers a = some { decision := .allow } := by
  obtain ⟨user, hu, g, hg, hgc⟩ := h
  have hne : c.alwaysAllowGroups ≠ [] := List.ne_nil_of_mem hgc
  rw [Config.groupMembers, if_neg hne]
  simp only [decisive, List.map_cons, List.map_nil, newPrivilegedGroups_spec _ hu,
    if_pos (⟨g, hg, hgc⟩ : ∃ g ∈ user.groups, g ∈ c.alwaysAllowGroups)]
  rfl

/-- Without a user the group member complains, and without a group of the
    configuration it has nothing to say. -/
theorem groupMembers_of_not_privileged (h : ¬ c.Privileged a) :
    decisive c.groupMembers a = none ∧
    (c.alwaysAllowGroups ≠ [] ∧ a.user = none → reasons c.groupMembers a = ["Error"]) ∧
    (c.alwaysAllowGroups = [] ∨ a.user ≠ none →
      reasons c.groupMembers a = [] ∧ errors c.groupMembers a = []) := by
  rw [Config.groupMembers]
  split_ifs with hne
  · exact ⟨rfl, fun hn => absurd hne hn.1, fun _ => ⟨rfl, rfl⟩⟩
  · cases hu : a.user with
    | none =>
      have hn : newPrivilegedGroups c.alwaysAllowGroups a =
          { decision := .noOpinion, reason := "Error", err := some "no user on request." } := by
        simp only [newPrivilegedGroups, hu]
      refine ⟨by simp [decisive, hn], fun _ => by simp [reasons, hn], ?_⟩
      rintro (hempty | hsome)
      · exact absurd hempty hne
      · exact absurd rfl hsome
    | some user =>
      have hno : ¬ ∃ g ∈ user.groups, g ∈ c.alwaysAllowGroups := fun hg => h ⟨user, hu, hg⟩
      have hn := newPrivilegedGroups_spec c.alwaysAllowGroups hu
      rw [if_neg hno] at hn
      refine ⟨by simp [decisive, hn], fun hnone => absurd hnone.2 nofun, fun _ => ?_⟩
      simp [reasons, errors, hn]

include hp in
theorem decisive_pathMembers_of_excluded (h : c.Excluded a) :
    decisive pathMembers a = some { decision := .allow } := by
  rcases hp with ⟨hempty, -⟩ | ⟨pathAuthz, hp, rfl⟩
  · obtain ⟨-, p, hmem, -⟩ := h
    rw [hempty] at hmem
    cases hmem
  · rcases newPathAuthorizer_spec d hp a with ⟨-, hn⟩ | ⟨hno, -⟩
    · simp [decisive, hn]
    · exact absurd h hno

include hp in
theorem pathMembers_of_not_excluded (h : ¬ c.Excluded a) :
    decisive pathMembers a = none ∧ reasons pathMembers a = [] ∧ errors pathMembers a = [] := by
  rcases hp with ⟨-, rfl⟩ | ⟨pathAuthz, hp, rfl⟩
  · exact ⟨rfl, rfl, rfl⟩
  · rcases newPathAuthorizer_spec d hp a with ⟨hyes, -⟩ | ⟨-, hn⟩
    · exact absurd hyes h
    · simp [decisive, reasons, errors, hn]

end Members

/-! ## Always allowed -/

/-- What is always allowed is allowed exactly when no mode denies it first. Any
    other request is up to the modes alone exactly when one of them decides it,
    or it has a user, or no groups are configured. -/
theorem unconditional_iff {factories : AList fun _ : String => Factory} {c : Config}
    {modes : List Authorizer} {authz : Authorizer} (hm : loadModes factories c.modes = .ok modes)
    (h : initAuthorization d factories c = .ok authz) (a : Attributes) :
    c.Unconditional d a modes authz ↔
      (c.AlwaysAllowed a → (decisive modes a).map Answer.decision ≠ some .deny) ∧
      (¬ c.AlwaysAllowed a →
        c.alwaysAllowGroups = [] ∨ a.user ≠ none ∨ (decisive modes a).isSome) := by
  obtain ⟨pathMembers, rfl, hp⟩ := initAuthorization_eq d hm h
  refine and_congr (imp_congr_right fun hallowed => ?_) (imp_congr_right fun hallowed => ?_)
  · cases hdec : decisive modes a with
    | some answer =>
      rw [union_append_of_decisive d hdec]
      have hne : answer.decision ≠ .noOpinion := by
        simpa using List.find?_some hdec
      cases hanswer : answer.decision <;> simp_all
    | none =>
      -- No mode has an opinion: the group member allows it, or the path member.
      have hextra : decisive (c.groupMembers ++ pathMembers) a = some { decision := .allow } := by
        rw [decisive_append]
        by_cases hpriv : c.Privileged a
        · rw [decisive_groupMembers_of_privileged hpriv]
          rfl
        · rw [(groupMembers_of_not_privileged hpriv).1,
            decisive_pathMembers_of_excluded hp (hallowed.resolve_left hpriv)]
          rfl
      simp [union_eq, decisive_append modes, hdec, hextra]
  · obtain ⟨hpriv, hexcl⟩ := not_or.1 hallowed
    obtain ⟨hgroups, hcomplains, hsilent⟩ := groupMembers_of_not_privileged hpriv
    obtain ⟨hpaths, hpathReasons, hpathErrors⟩ := pathMembers_of_not_excluded hp hexcl
    cases hdec : decisive modes a with
    | some answer =>
      rw [union_append_of_decisive d hdec, union_eq, hdec]
      simp
    | none =>
      have hextra : decisive (modes ++ (c.groupMembers ++ pathMembers)) a = none := by
        simp [decisive_append, hdec, hgroups, hpaths]
      rw [union_eq, union_eq, hextra, hdec]
      by_cases hsil : c.alwaysAllowGroups = [] ∨ a.user ≠ none
      · obtain ⟨hr, he⟩ := hsilent hsil
        simpa [reasons_append, errors_append, hr, he, hpathReasons, hpathErrors] using hsil
      · push Not at hsil
        simp [reasons_append, hcomplains hsil, hpathReasons, hsil, join_concat_ne]

/-- One mode that answers every request in the same way, and the default groups
    and paths. -/
def exampleFactories (decision : Decision) : AList fun _ : String => Factory :=
  AList.singleton "Webhook" (some (.ok fun _ => { decision }))

def exampleConfig : Config where
  modes := ["Webhook"]
  alwaysAllowPaths := ["/healthz", "/readyz", "/livez"]
  alwaysAllowGroups := ["system:masters"]

/-- A request of an administrator. -/
def exampleRequest : Attributes where
  user := some { name := "admin", groups := ["system:masters"] }
  verb := "get"
  resource := "pods"
  resourceRequest := true

theorem exampleConfig_unconditional :
    ∃ authz, initAuthorization Deps.plain (exampleFactories .noOpinion) exampleConfig = .ok authz ∧
      exampleConfig.Unconditional Deps.plain exampleRequest
        [fun _ => { decision := .noOpinion }] authz := by
  refine ⟨_, rfl, (unconditional_iff Deps.plain
    (rfl : loadModes (exampleFactories .noOpinion) exampleConfig.modes = _) rfl _).2
    ⟨fun _ => ?_, fun _ => ?_⟩⟩
  · decide
  · exact .inr (.inl nofun)

/-- A mode that denies is asked before the group of the user is looked at. -/
theorem exampleConfig_not_unconditional :
    ∃ authz, initAuthorization Deps.plain (exampleFactories .deny) exampleConfig = .ok authz ∧
      (authz exampleRequest).decision = .deny ∧
      ¬ exampleConfig.Unconditional Deps.plain exampleRequest
        [fun _ => { decision := .deny }] authz := by
  refine ⟨_, rfl, rfl, fun ⟨hallowed, _⟩ => ?_⟩
  have hpriv : exampleConfig.Privileged exampleRequest :=
    ⟨_, rfl, "system:masters", List.mem_cons_self, List.mem_cons_self⟩
  cases hallowed (.inl hpriv)

end Apiserver.Authorization
