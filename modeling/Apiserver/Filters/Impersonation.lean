import Apiserver.Authentication.ServiceAccount
import Apiserver.Filters.Authorization

/-!
# The impersonation filter

A request may ask to be served as another user (`pkg/filters/impersonation.go`):
headers name the user, and the groups and the extra values they should have.
The filter asks the authorizer about each of these, on behalf of the requesting
user, and passes the request on with the new user only if all are allowed.

* `impersonationLoop_spec`: the loop that authorizes and accumulates the new
  user at once has authorized everything it accumulated;
* `mem_clearHeaders`: the headers of the filter are gone from what it passes on;
* `impersonate_sound`: a user other than the requester is one the authorizer
  allowed, with the groups and the extra values it allowed.
-/

namespace Apiserver

open Go ServiceAccount

/-- What the filter takes from outside the repository: the names of its headers
    (the constants in `pkg/apis/authentication` are the default), the checks on
    service account names, and `url.PathUnescape`. -/
structure ImpersonationEnv where
  userHeader : String := "Impersonate-User"
  groupHeader : String := "Impersonate-Group"
  extraHeaderPrefix : String := "Impersonate-Extra-"
  validation : NameValidation
  pathUnescape : String → Option String

/-- `ImpersonationRequestKind`. -/
inductive ImpersonationKind
  | user
  | serviceAccount
  | group
  | userExtra
  deriving DecidableEq

/-- `ImpersonationRequest`. -/
structure ImpersonationRequest where
  kind : ImpersonationKind
  ns : String := ""
  name : String := ""
  fieldPath : String := ""
  deriving DecidableEq

/-- The `%v` verb on an impersonation request. -/
def ImpersonationRequest.format (r : ImpersonationRequest) : String :=
  let kind := match r.kind with
    | .user => "0"
    | .serviceAccount => "1"
    | .group => "2"
    | .userExtra => "3"
  "\x7b" ++ kind ++ " " ++ r.ns ++ " " ++ r.name ++ " " ++ r.fieldPath ++ "\x7d"

variable (e : ImpersonationEnv)

/-! ## What is requested -/

/-- `unescapeExtraKey`. -/
def unescapeExtraKey (encodedKey : String) : String :=
  (e.pathUnescape encodedKey).getD encodedKey

/-- The key of the extra values in a header. -/
def extraKey (headerName : String) : String :=
  unescapeExtraKey e (toLower
    (String.ofList (headerName.toList.drop e.extraHeaderPrefix.toList.length)))

/-- The headers with extra values. -/
def extraHeaders (headers : Header) : List (Sigma fun _ : String => List String) :=
  headers.entries.filter fun h => hasPrefix h.1 e.extraHeaderPrefix

/-- The extra values, with their keys. -/
def extraPairs (headers : Header) : List (String × String) :=
  (extraHeaders e headers).flatMap fun h => h.2.map fun value => (extraKey e h.1, value)

/-- The request for a user, a service account if the name is that of one. -/
def userRequest (requestedUser : String) : ImpersonationRequest :=
  match splitUsername e.validation requestedUser with
  | some (ns, name) => { kind := .serviceAccount, ns, name }
  | none => { kind := .user, name := requestedUser }

def groupRequest (group : String) : ImpersonationRequest := { kind := .group, name := group }

def extraRequest (p : String × String) : ImpersonationRequest :=
  { kind := .userExtra, name := p.2, fieldPath := p.1 }

/-- `buildImpersonationRequests`. -/
def buildImpersonationRequests (headers : Header) : Except Error (List ImpersonationRequest) :=
  let requestedUser := headers.get e.userHeader
  let hasUser := requestedUser ≠ ""
  let requests := (if hasUser then [userRequest e requestedUser] else []) ++
    (headers.index e.groupHeader).map groupRequest ++ (extraPairs e headers).map extraRequest
  if (headers.index e.groupHeader ≠ [] ∨ extraHeaders e headers ≠ []) ∧ ¬ hasUser then
    .error ("requested [" ++ join (requests.map (·.format)) " " ++
      "] without impersonating a user")
  else .ok requests

/-! ## Authorizing and accumulating -/

variable {σ : Type}

/-- `actingAsAttributes`: what the authorizer is asked. -/
def actingAsAttributes (requestor : UserInfo) (r : ImpersonationRequest) : Attributes :=
  let a : Attributes :=
    { user := some requestor
      verb := "impersonate"
      ns := r.ns
      name := r.name
      resourceRequest := true }
  match r.kind with
  | .serviceAccount => { a with resource := "serviceaccounts" }
  | .user => { a with resource := "users" }
  | .group => { a with resource := "groups" }
  | .userExtra => { a with resource := "userextras", subresource := r.fieldPath }

/-- The new user as far as it has been accumulated. -/
structure Acting where
  username : String := ""
  groups : List String := []
  userExtra : Values := ∅

/-- Accumulating a request. -/
def Acting.add (groupsSpecified : Bool) (acc : Acting) (r : ImpersonationRequest) : Acting :=
  match r.kind with
  | .serviceAccount =>
    { acc with
      username := makeUsername r.ns r.name
      groups := if groupsSpecified then acc.groups else makeGroupNames r.ns }
  | .user => { acc with username := r.name }
  | .group => { acc with groups := acc.groups ++ [r.name] }
  | .userExtra => { acc with userExtra := Header.push acc.userExtra r.fieldPath r.name }

/-- The loop of `WithImpersonation`: what happens in it, the new user unless a
    request has been refused, and the state. -/
def impersonationLoop (authz : AuthorizerM σ) (requestor : UserInfo) (groupsSpecified : Bool) :
    List ImpersonationRequest → Acting → σ → List Event × Option Acting × σ
  | [], acc, s => ([], some acc, s)
  | r :: l, acc, s =>
    let a := actingAsAttributes requestor r
    let (answer, s) := authz a s
    if answer.err ≠ none ∨ answer.decision ≠ .allow then
      ([.authorize a answer, .respond (.forbidden a answer.reason)], none, s)
    else
      let (trace, acc, s) :=
        impersonationLoop authz requestor groupsSpecified l (acc.add groupsSpecified r) s
      (.authorize a answer :: trace, acc, s)

/-- The groups of the new user, after the loop. -/
def adjustGroups (username : String) (groups : List String) : List String :=
  if username ≠ anonymous then
    if groups.any fun group => group == allAuthenticated || group == allUnauthenticated then groups
    else groups ++ [allAuthenticated]
  else if groups.any (· == allUnauthenticated) then groups
  else groups ++ [allUnauthenticated]

/-- The new user. -/
def Acting.newUser (acc : Acting) : UserInfo where
  name := acc.username
  groups := adjustGroups acc.username acc.groups
  extra := acc.userExtra

/-- The headers of a request short of those of the filter. -/
def clearHeaders (headers : Header) : Header :=
  let headers := (headers.del e.userHeader).del e.groupHeader
  headers.keys.foldl
    (fun h headerName =>
      if hasPrefix headerName e.extraHeaderPrefix then h.del headerName else h)
    headers

/-- What the filter does with a request. -/
inductive Impersonation (σ : Type)
  | rejected (trace : List Event) (state : σ)
  | forwarded (trace : List Event) (req : HttpRequest) (state : σ)

/-- The part of `WithImpersonation` before the inner handler. -/
def impersonate (authz : AuthorizerM σ) (req : HttpRequest) (s : σ) : Impersonation σ :=
  match buildImpersonationRequests e req.header with
  | .error err => .rejected [.respond (.internalError err)] s
  | .ok [] => .forwarded [] req s
  | .ok requests => match req.ctx.user with
    | none => .rejected [.respond (.internalError "no user found for request")] s
    | some requestor =>
      let groupsSpecified := req.header.index e.groupHeader ≠ []
      match impersonationLoop authz requestor groupsSpecified requests {} s with
      | (trace, none, s) => .rejected trace s
      | (trace, some acc, s) =>
        .forwarded trace
          { req with
            header := clearHeaders e req.header
            ctx := { req.ctx with user := some acc.newUser } } s

/-- `WithImpersonation`. -/
def withImpersonation (authz : AuthorizerM σ) : Filter σ := fun handler req s =>
  match impersonate e authz req s with
  | .rejected trace s => { trace, state := s }
  | .forwarded trace req s => (handler req s).after trace

/-! ## Who the new user may be -/

/-- The authorizer was asked about the attributes, and allowed them. -/
def Allowed (trace : List Event) (a : Attributes) : Prop :=
  ∃ answer, .authorize a answer ∈ trace ∧ answer.decision = .allow ∧ answer.err = none

/-- The attributes of asking to impersonate something of a kind. -/
def asking (requestor : UserInfo) (resource : String) : Attributes where
  user := some requestor
  verb := "impersonate"
  resource := resource
  resourceRequest := true

/-- The new user is the one the headers ask for, and the authorizer allowed all of it. -/
structure Impersonates (headers : Header) (trace : List Event) (requestor newUser : UserInfo) :
    Prop where
  requested : headers.get e.userHeader ≠ ""
  name : newUser.name = headers.get e.userHeader
  uid : newUser.uid = ""
  /-- The user name, or the service account, was allowed, -/
  userAllowed : match splitUsername e.validation newUser.name with
    | some (ns, name) => Allowed trace { asking requestor "serviceaccounts" with ns, name }
    | none => Allowed trace { asking requestor "users" with name := newUser.name }
  /-- and every group, -/
  groupsAllowed : ∀ g ∈ headers.index e.groupHeader,
    Allowed trace { asking requestor "groups" with name := g }
  /-- and every extra value. -/
  extraAllowed : ∀ p ∈ extraPairs e headers,
    Allowed trace { asking requestor "userextras" with subresource := p.1, name := p.2 }
  /-- The groups are the requested ones, or those of the service account if none
      are, and the group of all users that are, or are not, authenticated. -/
  groups : ∀ g ∈ newUser.groups, g ∈ headers.index e.groupHeader ∨
    (headers.index e.groupHeader = [] ∧ ∃ ns name,
      splitUsername e.validation newUser.name = some (ns, name) ∧ g ∈ makeGroupNames ns) ∨
    (newUser.name ≠ anonymous ∧ g = allAuthenticated) ∨
    (newUser.name = anonymous ∧ g = allUnauthenticated)
  /-- The extra values are exactly the requested ones. -/
  extra : ∀ key, Header.index newUser.extra key = Header.valuesOf (extraPairs e headers) key ∧
    (key ∈ newUser.extra ↔ Header.valuesOf (extraPairs e headers) key ≠ [])

/-- No header of the filter is left. -/
structure Cleared (headers : Header) : Prop where
  user : canonicalMIMEHeaderKey e.userHeader ∉ headers
  group : e.groupHeader ∉ headers
  extra : ∀ k ∈ headers, hasPrefix k e.extraHeaderPrefix = false

variable {e}

/-- Requests are built for a user, and for groups and extra values besides. -/
theorem buildImpersonationRequests_spec {headers : Header} {requests : List ImpersonationRequest}
    (h : buildImpersonationRequests e headers = .ok requests) (hne : requests ≠ []) :
    headers.get e.userHeader ≠ "" ∧
      requests = userRequest e (headers.get e.userHeader) ::
        ((headers.index e.groupHeader).map groupRequest ++
          (extraPairs e headers).map extraRequest) := by
  rw [buildImpersonationRequests] at h
  split at h
  · cases h
  case isFalse hno =>
    rw [not_and_or, not_not] at hno
    cases h
    rcases hno with hno | hu
    · -- Without groups and extra values, a user is all there can be.
      push Not at hno
      have hpairs : extraPairs e headers = [] := by simp [extraPairs, hno.2]
      by_cases hu : headers.get e.userHeader = ""
      · simp [hu, hno.1, hpairs] at hne
      · exact ⟨hu, by simp [hu]⟩
    · exact ⟨hu, by simp [hu]⟩

/-- If the loop goes through, everything it accumulated has been allowed, and so
    has everything it asked about. -/
theorem impersonationLoop_spec {authz : AuthorizerM σ} {requestor : UserInfo}
    {groupsSpecified : Bool} {l : List ImpersonationRequest} {acc acc' : Acting} {s s' : σ}
    {trace : List Event}
    (h : impersonationLoop authz requestor groupsSpecified l acc s = (trace, some acc', s')) :
    acc' = l.foldl (Acting.add groupsSpecified) acc ∧
      (∀ r ∈ l, Allowed trace (actingAsAttributes requestor r)) ∧
      ∀ x ∈ trace, ∃ a answer, x = .authorize a answer ∧ answer.decision = .allow := by
  induction l generalizing acc s trace with
  | nil =>
    cases h
    exact ⟨rfl, fun _ hr => absurd hr List.not_mem_nil, fun _ hx => absurd hx List.not_mem_nil⟩
  | cons r l ih =>
    rw [impersonationLoop] at h
    dsimp only at h
    split at h
    · cases h
    case isFalse hallow =>
      push Not at hallow
      rcases hloop : impersonationLoop authz requestor groupsSpecified l
        (acc.add groupsSpecified r) (authz (actingAsAttributes requestor r) s).2 with
        ⟨trace', acc'', s''⟩
      rw [hloop] at h
      cases h
      obtain ⟨hacc, hall, htrace⟩ := ih hloop
      refine ⟨hacc, fun r' hr' => ?_, fun x hx => ?_⟩
      · rcases List.mem_cons.1 hr' with rfl | hr'
        · exact ⟨_, List.mem_cons_self, hallow.2, hallow.1⟩
        · obtain ⟨answer, hmem, hanswer⟩ := hall r' hr'
          exact ⟨answer, List.mem_cons_of_mem _ hmem, hanswer⟩
      · rcases List.mem_cons.1 hx with rfl | hx
        · exact ⟨_, _, rfl, hallow.2⟩
        · exact htrace x hx

/-- The loop asks the authorizer, and decides nothing else. -/
theorem impersonationLoop_asks (authz : AuthorizerM σ) (requestor : UserInfo)
    (groupsSpecified : Bool) (l : List ImpersonationRequest) (acc : Acting) (s : σ) :
    ∀ x ∈ mediation (impersonationLoop authz requestor groupsSpecified l acc s).1,
      ∃ a answer, x = .authorize a answer := by
  induction l generalizing acc s with
  | nil => simp [impersonationLoop]
  | cons r l ih =>
    rw [impersonationLoop]
    dsimp only
    split
    · simp
    · intro x hx
      rw [mediation_cons_authorize] at hx
      rcases List.mem_cons.1 hx with rfl | hx
      · exact ⟨_, _, rfl⟩
      · exact ih _ _ x hx

theorem foldl_add_groupRequest (b : Bool) (l : List String) (acc : Acting) :
    (l.map groupRequest).foldl (Acting.add b) acc = { acc with groups := acc.groups ++ l } := by
  induction l generalizing acc with
  | nil => simp
  | cons g l ih =>
    rw [List.map_cons, List.foldl_cons, ih]
    simp [Acting.add, groupRequest]

theorem foldl_add_extraRequest (b : Bool) (l : List (String × String)) (acc : Acting) :
    (l.map extraRequest).foldl (Acting.add b) acc =
      { acc with userExtra := l.foldl (fun h p => Header.push h p.1 p.2) acc.userExtra } := by
  induction l generalizing acc with
  | nil => rfl
  | cons p l ih =>
    rw [List.map_cons, List.foldl_cons, ih]
    rfl

/-- Only the groups of all users are added. -/
theorem mem_adjustGroups {username g : String} {groups : List String}
    (h : g ∈ adjustGroups username groups) :
    g ∈ groups ∨ (username ≠ anonymous ∧ g = allAuthenticated) ∨
      (username = anonymous ∧ g = allUnauthenticated) := by
  rw [adjustGroups] at h
  split at h
  case isTrue hu =>
    split at h
    · exact .inl h
    · rcases List.mem_append.1 h with h | h
      · exact .inl h
      · exact .inr (.inl ⟨hu, List.mem_singleton.1 h⟩)
  case isFalse hu =>
    rw [not_not] at hu
    split at h
    · exact .inl h
    · rcases List.mem_append.1 h with h | h
      · exact .inl h
      · exact .inr (.inr ⟨hu, List.mem_singleton.1 h⟩)

/-- The headers of the filter are deleted, if all names are canonical. -/
theorem clearHeaders_cleared {headers : Header}
    (hcanon : ∀ k ∈ headers, canonicalMIMEHeaderKey k = k) :
    Cleared e (clearHeaders e headers) := by
  have key {k : String} (hk : k ∈ clearHeaders e headers) :
      k ∈ headers ∧ k ≠ canonicalMIMEHeaderKey e.userHeader ∧
        k ≠ canonicalMIMEHeaderKey e.groupHeader ∧ hasPrefix k e.extraHeaderPrefix = false := by
    rw [clearHeaders, ← List.foldl_filter, Header.mem_foldl_del] at hk
    obtain ⟨hmem, hext⟩ := hk
    have hmem' := hmem
    rw [Header.mem_del, Header.mem_del] at hmem
    obtain ⟨hgroup, huser, hmem⟩ := hmem
    refine ⟨hmem, huser, hgroup, ?_⟩
    by_contra hp
    rw [Bool.not_eq_false] at hp
    exact hext k (List.mem_filter.2 ⟨AList.mem_keys.1 hmem', hp⟩) (hcanon k hmem).symm
  refine ⟨fun h => (key h).2.1 rfl, fun h => ?_, fun k hk => (key hk).2.2.2⟩
  exact (key h).2.2.1 (hcanon _ (key h).1).symm

/-! ## Soundness -/

variable {authz : AuthorizerM σ} {req req' : HttpRequest} {s s' : σ} {trace : List Event}

/-- A request is forwarded as it is, or as acting for a new user that the loop
    went through for. -/
theorem impersonate_forwarded (h : impersonate e authz req s = .forwarded trace req' s') :
    (trace = [] ∧ req' = req) ∨
    ∃ requestor requests acc, req.ctx.user = some requestor ∧
      buildImpersonationRequests e req.header = .ok requests ∧ requests ≠ [] ∧
      impersonationLoop authz requestor (req.header.index e.groupHeader ≠ []) requests {} s =
        (trace, some acc, s') ∧
      req' = { req with
        header := clearHeaders e req.header
        ctx := { req.ctx with user := some acc.newUser } } := by
  rw [impersonate] at h
  split at h
  · cases h
  · cases h
    exact .inl ⟨rfl, rfl⟩
  case h_3 requests hne hbuild =>
    split at h
    · cases h
    case h_2 requestor huser =>
      dsimp only at h
      split at h
      · cases h
      case h_2 trace' acc s'' hloop =>
        cases h
        exact .inr ⟨requestor, requests, acc, huser, hbuild, hne, hloop, rfl⟩

/-- Before a request is rejected, at most the authorizer is asked. -/
theorem impersonate_rejected (h : impersonate e authz req s = .rejected trace s') :
    ∀ x ∈ mediation trace, ∃ a answer, x = .authorize a answer := by
  rw [impersonate] at h
  split at h
  · cases h
    simp
  · cases h
  case h_3 requests hne hbuild =>
    split at h
    · cases h
      simp
    case h_2 requestor huser =>
      dsimp only at h
      split at h
      case h_1 trace' s'' hloop =>
        cases h
        have hasks := impersonationLoop_asks authz requestor
          (req.header.index e.groupHeader ≠ []) requests {} s
        rw [hloop] at hasks
        exact hasks
      · cases h

/-- What the loop has accumulated at its end. -/
theorem acting_eq (b : Bool) (headers : Header) :
    (userRequest e (headers.get e.userHeader) ::
      ((headers.index e.groupHeader).map groupRequest ++
        (extraPairs e headers).map extraRequest)).foldl (Acting.add b) {} =
    { username := headers.get e.userHeader
      groups := (match splitUsername e.validation (headers.get e.userHeader) with
        | some (ns, _) => if b then [] else makeGroupNames ns
        | none => []) ++ headers.index e.groupHeader
      userExtra := (extraPairs e headers).foldl (fun h p => Header.push h p.1 p.2) ∅ } := by
  rw [List.foldl_cons, List.foldl_append, foldl_add_groupRequest, foldl_add_extraRequest,
    userRequest]
  cases hsplit : splitUsername e.validation (headers.get e.userHeader) with
  | none => simp [Acting.add]
  | some p =>
    obtain ⟨ns, name⟩ := p
    have hname := splitUsername_eq_some hsplit
    cases b <;> simp [Acting.add, ← hname]

/-- Where the groups of the new user come from. -/
theorem mem_groups_of_acting {username g : String} {requested : List String}
    (h : g ∈ adjustGroups username ((match splitUsername e.validation username with
      | some (ns, _) => if decide (requested ≠ []) then [] else makeGroupNames ns
      | none => []) ++ requested)) :
    g ∈ requested ∨
      (requested = [] ∧ ∃ ns name,
        splitUsername e.validation username = some (ns, name) ∧ g ∈ makeGroupNames ns) ∨
      (username ≠ anonymous ∧ g = allAuthenticated) ∨
      (username = anonymous ∧ g = allUnauthenticated) := by
  rcases mem_adjustGroups h with h | h
  · rcases List.mem_append.1 h with h | h
    · -- A group that was not requested is one of a service account.
      split at h
      case h_1 ns name hsplit =>
        split at h
        · cases h
        case isFalse hnone =>
          exact .inr (.inl ⟨by simpa using hnone, ns, name, hsplit, h⟩)
      case h_2 => cases h
    · exact .inl h
  · exact .inr (.inr h)

/-- The new user is one the headers ask for and the authorizer allowed. -/
theorem impersonates_of_loop {requestor : UserInfo} {requests : List ImpersonationRequest}
    {acc : Acting} (hbuild : buildImpersonationRequests e req.header = .ok requests)
    (hne : requests ≠ [])
    (hloop : impersonationLoop authz requestor (req.header.index e.groupHeader ≠ []) requests {} s =
      (trace, some acc, s')) :
    Impersonates e req.header trace requestor acc.newUser := by
  -- Every part of the new user comes from a request, and every request was allowed.
  obtain ⟨hu, hrequests⟩ := buildImpersonationRequests_spec hbuild hne
  obtain ⟨hacc, hallowed, -⟩ := impersonationLoop_spec hloop
  rw [hrequests, acting_eq] at hacc
  have hname : acc.newUser.name = req.header.get e.userHeader := by rw [hacc]; rfl
  refine ⟨hu, hname, rfl, ?_, fun g hg => ?_, fun p hp => ?_, fun g hg => ?_, fun key => ?_⟩
  · have huser := hallowed (userRequest e (req.header.get e.userHeader))
      (hrequests ▸ List.mem_cons_self)
    rw [hname]
    rw [userRequest] at huser
    split at huser <;> exact huser
  · have hmem : groupRequest g ∈ requests := by
      rw [hrequests]
      exact List.mem_cons_of_mem _ (List.mem_append_left _ (List.mem_map_of_mem hg))
    exact hallowed _ hmem
  · have hmem : extraRequest p ∈ requests := by
      rw [hrequests]
      exact List.mem_cons_of_mem _ (List.mem_append_right _ (List.mem_map_of_mem hp))
    exact hallowed _ hmem
  · rw [hname]
    have hg : g ∈ adjustGroups acc.username acc.groups := hg
    rw [hacc] at hg
    exact mem_groups_of_acting hg
  · have hextra : acc.newUser.extra =
        (extraPairs e req.header).foldl (fun h p => Header.push h p.1 p.2) ∅ := by rw [hacc]; rfl
    rw [hextra]
    refine ⟨?_, ?_⟩
    · rw [Header.index_foldl_push]
      rfl
    · rw [Header.mem_foldl_push]
      simp

/-- The filter passes on a user other than the requester only if the authorizer
    allowed all of that user, and without the headers that asked for it. A request
    for groups or extra values without a user is rejected. -/
theorem impersonate_sound (authz : AuthorizerM σ) (req : HttpRequest) (s : σ)
    (hcanon : ∀ k ∈ req.header, canonicalMIMEHeaderKey k = k) :
    (∀ trace req' s', impersonate e authz req s = .forwarded trace req' s' →
      req'.ctx.user ≠ req.ctx.user →
      ∃ requestor newUser, req.ctx.user = some requestor ∧ req'.ctx.user = some newUser ∧
        Impersonates e req.header trace requestor newUser ∧ Cleared e req'.header) ∧
    (req.header.get e.userHeader = "" →
      req.header.index e.groupHeader ≠ [] ∨ extraHeaders e req.header ≠ [] →
      ∃ err, ∀ handler, withImpersonation e authz handler req s =
        { trace := [.respond (.internalError err)], state := s }) := by
  refine ⟨fun trace req' s' h hne => ?_, fun hu hothers => ?_⟩
  · rcases impersonate_forwarded h with ⟨-, rfl⟩ |
      ⟨requestor, requests, acc, huser, hbuild, hrequests, hloop, rfl⟩
    · exact absurd rfl hne
    · exact ⟨requestor, acc.newUser, huser, rfl, impersonates_of_loop hbuild hrequests hloop,
        clearHeaders_cleared hcanon⟩
  · have hbuild : ∃ err, buildImpersonationRequests e req.header = .error err := by
      rw [buildImpersonationRequests]
      exact ⟨_, if_pos ⟨hothers, by simpa using hu⟩⟩
    obtain ⟨err, herr⟩ := hbuild
    refine ⟨err, fun handler => ?_⟩
    rw [withImpersonation, impersonate, herr]

/-- Names that are all valid, and keys that are not escaped. -/
def exampleEnv : ImpersonationEnv where
  validation := { isDNS1123Label := fun _ => [], isDNS1123Subdomain := fun _ => [] }
  pathUnescape := some

/-- Alice asks to be served as Bob in a group. -/
def exampleImpersonation : HttpRequest where
  header := (AList.singleton "Impersonate-Group" ["devs"]).insert "Impersonate-User" ["bob"]
  ctx := { user := some { name := "alice", groups := ["admins"] } }

/-- An authorizer that allows everything. -/
def allowAllM : AuthorizerM Unit := fun _ s => ({ decision := .allow }, s)

theorem exampleImpersonation_sound :
    ∃ trace req', impersonate exampleEnv allowAllM exampleImpersonation () =
        .forwarded trace req' () ∧
      req'.ctx.user = some { name := "bob", groups := ["devs", "system:authenticated"] } ∧
      ∃ requestor newUser, exampleImpersonation.ctx.user = some requestor ∧
        req'.ctx.user = some newUser ∧
        Impersonates exampleEnv exampleImpersonation.header trace requestor newUser ∧
        Cleared exampleEnv req'.header := by
  have hcanon : ∀ k ∈ exampleImpersonation.header.keys, canonicalMIMEHeaderKey k = k := by decide
  refine ⟨_, _, rfl, rfl, ?_⟩
  refine (impersonate_sound allowAllM exampleImpersonation () fun k hk =>
    hcanon k (AList.mem_keys.1 hk)).1 _ _ () rfl fun h => ?_
  exact absurd (congrArg (Option.map UserInfo.name) h) (by decide)

end Apiserver
