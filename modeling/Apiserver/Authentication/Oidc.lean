import Apiserver.Authentication.Request

/-!
# OpenID Connect tokens

The authenticator for ID tokens (`plugin/authenticator/token/oidc`). A verifier
checks that a token was signed by the configured provider; the user is then read
off the claims in the token, some of which may be required. The provider may leave
out the claim with the groups and name an endpoint in its place, which has a token
of its own with that claim (a *distributed* claim). The claim is added to those of
the ID token before the user is read off them.

* `expand_eq_ok`: only the claim of the resolver is added, and only if it is not
  there;
* `identify_supported`: what the user is read off;
* `authenticateToken_sound_iff`: the required claims and the name of the user are in
  the ID token, unless one of them is also the claim with the groups and is not in
  it. `delegated_admin` is a user whose required claim is from the endpoint.
-/

namespace Apiserver.Authentication.Oidc

open Go

/-! ## Claims and verifiers -/

/-- `json.RawMessage`: the text of a value. -/
abbrev RawMessage := String

/-- `claims`. -/
abbrev Claims := AList fun _ : String => RawMessage

/-- `oidc.IDToken`, with what `Claims` decodes its payload to. -/
structure IDToken where
  claims : Except Error Claims

/-- `Verify` of an `oidc.IDTokenVerifier`. -/
abbrev Verifier := Context → String → Except Error IDToken

/-- `endpoint`. -/
structure Endpoint where
  url : String := ""
  accessToken : String := ""
  jwt : String := ""

/-- The `%s` verb on an endpoint. -/
def Endpoint.format (ep : Endpoint) : String :=
  "\x7b" ++ ep.url ++ " " ++ ep.accessToken ++ " " ++ ep.jwt ++ "\x7d"

/-- A response to `getClaimJWT`; reading its body may fail. -/
structure ClaimResponse where
  statusCode : ℤ
  status : String
  body : Option String

/-- What the authenticator takes from outside the repository: the decoders of
    `encoding/json` for the types it decodes to, the HTTP client, and the texts of
    errors. -/
structure OidcEnv where
  deps : Deps
  /-- The text of a `base64.CorruptInputError`. -/
  corruptInput : String → Error
  /-- The `iss` field of a payload. -/
  unmarshalIssuer : Bytes → Except Error String
  unmarshalString : RawMessage → Except Error String
  unmarshalBool : RawMessage → Except Error Bool
  unmarshalStrings : RawMessage → Except Error (List String)
  unmarshalClaimNames : RawMessage → Except Error (AList fun _ : String => String)
  unmarshalClaimSources : RawMessage → Except Error (AList fun _ : String => Endpoint)
  /-- `http.NewRequest`: whether a URL is refused. -/
  newRequest : String → Option Error
  /-- `Do` of the client, on a URL and an `Authorization` header. -/
  send : String → Option String → Except Error ClaimResponse
  /-- `certutil.NewPool`: whether a CA file is refused. -/
  newPool : String → Option Error

variable (e : OidcEnv)

/-- `unmarshalClaim`, with the decoder for the type. -/
def Claims.unmarshalClaim {α : Type} (c : Claims) (name : String)
    (decode : RawMessage → Except Error α) : Except Error α :=
  match c.lookup name with
  | none => .error "claim not present"
  | some val => decode val

/-- `UnmarshalJSON` of a `stringOrArray`. -/
def unmarshalStringOrArray (b : RawMessage) : Except Error (List String) :=
  match e.unmarshalStrings b with
  | .ok a => .ok a
  | .error _ => (e.unmarshalString b).map fun str => [str]

/-- `untrustedIssuer`. -/
def untrustedIssuer (token : String) : Except Error String :=
  match split token '.' with
  | [_, part, _] => match rawURLEncoding.decodeString part with
    | none => .error ("error decoding token: " ++ e.corruptInput part)
    | some payload => do
      let issuer ← (e.unmarshalIssuer payload).mapError ("while unmarshaling token: " ++ ·)
      return if issuer = "accounts.google.com" then "https://accounts.google.com" else issuer
  | _ => .error "malformed token"

/-- `hasCorrectIssuer`. -/
def hasCorrectIssuer (iss tokenData : String) : Bool :=
  match untrustedIssuer e tokenData with
  | .error _ => false
  | .ok uiss => uiss = iss

/-! ## Distributed claims -/

/-- `getClaimJWT`. -/
def getClaimJWT (url accessToken : String) : Except Error String :=
  match e.newRequest url with
  | some err => .error ("while calling " ++ url ++ ": " ++ err)
  | none => do
    let response ← e.send url (if accessToken ≠ "" then some ("Bearer " ++ accessToken) else none)
    if response.statusCode < 200 ∨ response.statusCode > 226 then
      .error ("error while getting distributed claim JWT: " ++ response.status)
    else match response.body with
      | none => .error "could not decode distributed claim response"
      | some responseBytes => .ok responseBytes

/-- `claimResolver`, with the verifiers that have been initialized. -/
structure ClaimResolver where
  claim : String
  verifierPerIssuer : String → Option Verifier

namespace ClaimResolver

variable (r : ClaimResolver)

/-- `Verifier`. -/
def verifier (iss : String) : Except Error Verifier :=
  match r.verifierPerIssuer iss with
  | none => .error ("verifier not initialized for issuer: " ++ e.deps.quote iss)
  | some v => .ok v

/-- `resolve`: the claims with that of the resolver added. -/
def resolve (endpoint : Endpoint) (allClaims : Claims) : Except Error Claims := do
  let jwt ← (getClaimJWT e endpoint.url endpoint.accessToken).mapError
    ("while getting distributed claim " ++ e.deps.quote r.claim ++ ": " ++ ·)
  let untrustedIss ← (untrustedIssuer e jwt).mapError
    ("getting untrusted issuer from endpoint " ++ endpoint.url ++ " failed for claim " ++
      e.deps.quote r.claim ++ ": " ++ ·)
  let v ← (r.verifier e untrustedIss).mapError
    ("verifying untrusted issuer " ++ untrustedIss ++ " failed: " ++ ·)
  let t ← (v {} jwt).mapError ("verify distributed claim token: " ++ ·)
  let distClaims ← t.claims.mapError
    ("could not parse distributed claims for claim " ++ r.claim ++ ": " ++ ·)
  match distClaims.lookup r.claim with
  | none => .error ("jwt returned by distributed claim endpoint " ++ endpoint.format ++
      " did not contain claim: " ++ r.claim)
  | some value => .ok (allClaims.insert r.claim value)

/-- `expand`. -/
def expand (c : Claims) : Except Error Claims :=
  -- There already is a normal claim.
  if (c.lookup r.claim).isSome then .ok c
  else match c.lookup "_claim_names" with
    | none => .ok c
    | some names => do
      let claimToSource ← (e.unmarshalClaimNames names).mapError
        ("oidc: error parsing distributed claim names: " ++ ·)
      match c.lookup "_claim_sources" with
      | none => .error "oidc: no claim sources"
      | some rawSources =>
        let sources ← (e.unmarshalClaimSources rawSources).mapError
          ("oidc: could not parse claim sources: " ++ ·)
        match claimToSource.lookup r.claim with
        | none => .ok c
        | some src => match sources.lookup src with
          | none => .error ("id token _claim_names contained a source " ++ src ++
              " missing in _claims_sources")
          -- This may be an aggregated claim, which is not supported.
          | some ep => if ep.url = "" then .ok c else r.resolve e ep c

end ClaimResolver

/-! ## The authenticator -/

/-- `Options`. -/
structure Options where
  issuerURL : String := ""
  caFile : String := ""
  usernameClaim : String := ""
  usernamePrefix : String := ""
  groupsClaim : String := ""
  groupsPrefix : String := ""
  supportedSigningAlgs : List String := []
  requiredClaims : AList fun _ : String => String := ∅

/-- `Authenticator`, with its verifier if it has been initialized. A resolver is one
    for the claim with the groups. -/
structure Authenticator where
  issuerURL : String
  usernameClaim : String
  usernamePrefix : String := ""
  groupsClaim : String := ""
  groupsPrefix : String := ""
  requiredClaims : AList fun _ : String => String := ∅
  verifier : Option Verifier
  resolver : Option ClaimResolver
  resolver_claim : ∀ r ∈ resolver, r.claim = groupsClaim

def allowedSigningAlgs : List String :=
  ["RS256", "RS384", "RS512", "ES256", "ES384", "ES512", "PS256", "PS384", "PS512"]

/-- The checks `newAuthenticator` begins with. -/
def Options.check (opts : Options) : Option Error :=
  let supportedSigningAlgs :=
    if opts.supportedSigningAlgs = [] then ["RS256"] else opts.supportedSigningAlgs
  if opts.usernameClaim = "" then some "no username claim provided"
  else match supportedSigningAlgs.find? (· ∉ allowedSigningAlgs) with
    | some alg => some ("oidc: unsupported signing alg: " ++ e.deps.quote alg)
    | none =>
      if opts.caFile ≠ "" then (e.newPool opts.caFile).map ("Failed to read the CA file: " ++ ·)
      else none

/-- `newAuthenticator`, once the verifiers have been initialized or not. -/
def newAuthenticator (opts : Options) (verifier : Option Verifier)
    (verifierPerIssuer : String → Option Verifier) : Except Error Authenticator :=
  match opts.check e with
  | some err => .error err
  | none => .ok
    { issuerURL := opts.issuerURL
      usernameClaim := opts.usernameClaim
      usernamePrefix := opts.usernamePrefix
      groupsClaim := opts.groupsClaim
      groupsPrefix := opts.groupsPrefix
      requiredClaims := opts.requiredClaims
      verifier
      resolver :=
        if opts.groupsClaim ≠ "" then some { claim := opts.groupsClaim, verifierPerIssuer }
        else none
      resolver_claim := by
        intro r hr
        split_ifs at hr
        · cases hr
          rfl
        · cases hr }

namespace Authenticator

variable (a : Authenticator)

/-- The claims of an ID token that the verifier accepts. -/
def verifiedClaims (ctx : Context) (token : String) : Except Error Claims :=
  match a.verifier with
  | none => .error "oidc: authenticator not initialized"
  | some verifier => do
    let idToken ← (verifier ctx token).mapError ("oidc: verify token: " ++ ·)
    idToken.claims.mapError ("oidc: parse claims: " ++ ·)

/-- The claims with a distributed one. -/
def expandClaims (c : Claims) : Except Error Claims :=
  match a.resolver with
  | none => .ok c
  | some r => (r.expand e c).mapError ("oidc: could not expand distributed claims: " ++ ·)

/-- An email address has to be verified, if the token says whether it is. -/
def checkEmail (c : Claims) : Except Error Unit :=
  if a.usernameClaim = "email" ∧ (c.lookup "email_verified").isSome then do
    let emailVerified ← (c.unmarshalClaim "email_verified" e.unmarshalBool).mapError
      ("oidc: parse 'email_verified' claim: " ++ ·)
    if !emailVerified then .error "oidc: email not verified" else .ok ()
  else .ok ()

/-- The groups, before they are prefixed. -/
def groups (c : Claims) : Except Error (List String) :=
  if a.groupsClaim ≠ "" ∧ (c.lookup a.groupsClaim).isSome then
    (c.unmarshalClaim a.groupsClaim (unmarshalStringOrArray e)).mapError
      ("oidc: parse groups claim " ++ e.deps.quote a.groupsClaim ++ ": " ++ ·)
  else .ok []

/-- The loop over the required claims. -/
def checkRequired (c : Claims) : List (Sigma fun _ : String => String) → Except Error Unit
  | [] => .ok ()
  | ⟨claim, value⟩ :: l =>
    if (c.lookup claim).isNone then
      .error ("oidc: required claim " ++ claim ++ " not present in ID token")
    else do
      let claimValue ← (c.unmarshalClaim claim e.unmarshalString).mapError
        ("oidc: parse claim " ++ claim ++ ": " ++ ·)
      if claimValue ≠ value then
        .error ("oidc: required claim " ++ claim ++ " value does not match. Got = " ++ claimValue ++
          ", want = " ++ value)
      else checkRequired c l

/-- The user with the given claims. -/
def identify (c : Claims) : Except Error UserInfo := do
  let username ← (c.unmarshalClaim a.usernameClaim e.unmarshalString).mapError
    ("oidc: parse username claims " ++ e.deps.quote a.usernameClaim ++ ": " ++ ·)
  a.checkEmail e c
  let groups ← a.groups e c
  checkRequired e c a.requiredClaims.entries
  return {
    name := if a.usernamePrefix ≠ "" then a.usernamePrefix ++ username else username
    groups := if a.groupsPrefix ≠ "" then groups.map (a.groupsPrefix ++ ·) else groups }

/-- `AuthenticateToken`. -/
def authenticateToken : TokenAuthenticator := fun ctx token =>
  if !hasCorrectIssuer e a.issuerURL token then {}
  else match (do a.identify e (← a.expandClaims e (← a.verifiedClaims ctx token))) with
    | .error err => { err := some err }
    | .ok user => { response := some { user := some user }, ok := true }

end Authenticator

/-! ## What is added to the claims -/

namespace ClaimResolver

variable (r : ClaimResolver)

/-- The endpoint for the claim, as the claims name it. -/
structure EndpointFor (c : Claims) (ep : Endpoint) : Prop where
  names : ∃ names claimToSource src rawSources sources, c.lookup "_claim_names" = some names ∧
    e.unmarshalClaimNames names = .ok claimToSource ∧ claimToSource.lookup r.claim = some src ∧
    c.lookup "_claim_sources" = some rawSources ∧
    e.unmarshalClaimSources rawSources = .ok sources ∧ sources.lookup src = some ep
  url : ep.url ≠ ""

/-- The endpoint has a token with the value, which the verifier of its issuer
    accepts. -/
def Provides (ep : Endpoint) (value : RawMessage) : Prop :=
  ∃ jwt iss v t distClaims, getClaimJWT e ep.url ep.accessToken = .ok jwt ∧
    untrustedIssuer e jwt = .ok iss ∧ r.verifierPerIssuer iss = some v ∧ v {} jwt = .ok t ∧
    t.claims = .ok distClaims ∧ distClaims.lookup r.claim = some value

/-- The value of the claim that is not in the token itself. -/
structure Distributed (c : Claims) (value : RawMessage) : Prop where
  absent : r.claim ∉ c
  provided : ∃ ep, r.EndpointFor e c ep ∧ r.Provides e ep value

variable {e r}

/-- A claim that is resolved was provided by the endpoint. -/
theorem resolve_eq_ok {ep : Endpoint} {c c' : Claims} (h : r.resolve e ep c = .ok c') :
    ∃ value, r.Provides e ep value ∧ c' = c.insert r.claim value := by
  obtain ⟨jwt, hjwt, h⟩ := bind_eq_ok h
  obtain ⟨iss, hiss, h⟩ := bind_eq_ok h
  obtain ⟨v, hv, h⟩ := bind_eq_ok h
  obtain ⟨t, ht, h⟩ := bind_eq_ok h
  obtain ⟨distClaims, hdist, h⟩ := bind_eq_ok h
  rw [mapError_eq_ok] at hjwt hiss hv ht hdist
  have hv' : r.verifierPerIssuer iss = some v := by
    rw [verifier] at hv
    split at hv
    · cases hv
    · next hper =>
      cases hv
      exact hper
  split at h
  · cases h
  · next value hvalue =>
    cases h
    exact ⟨value, ⟨jwt, iss, v, t, distClaims, hjwt, hiss, hv', ht, hdist, hvalue⟩, rfl⟩

/-- The claims are left as they are, or get the one that is not there. -/
theorem expand_eq_ok {c c' : Claims} (h : r.expand e c = .ok c') :
    c' = c ∨ ∃ value, r.Distributed e c value ∧ c' = c.insert r.claim value := by
  rw [expand] at h
  split_ifs at h with hclaim
  · cases h
    exact .inl rfl
  have habsent : r.claim ∉ c := by
    rw [← AList.lookup_eq_none]
    simpa using hclaim
  split at h
  · cases h
    exact .inl rfl
  next names hnames =>
  obtain ⟨claimToSource, hto, h⟩ := bind_eq_ok h
  rw [mapError_eq_ok] at hto
  split at h
  · cases h
  next rawSources hraw =>
  obtain ⟨sources, hsources, h⟩ := bind_eq_ok h
  rw [mapError_eq_ok] at hsources
  split at h
  · cases h
    exact .inl rfl
  next src hsrc =>
  split at h
  · cases h
  next ep hep =>
  split_ifs at h with hurl
  · cases h
    exact .inl rfl
  · obtain ⟨value, hvalue, hc'⟩ := resolve_eq_ok h
    have hnamed : r.EndpointFor e c ep :=
      ⟨⟨names, claimToSource, src, rawSources, sources, hnames, hto, hsrc, hraw, hsources, hep⟩,
        hurl⟩
    exact .inr ⟨value, ⟨habsent, ep, hnamed, hvalue⟩, hc'⟩

end ClaimResolver

/-! ## What the user is read off -/

theorem Claims.unmarshalClaim_eq_ok {α : Type} {c : Claims} {name : String}
    {decode : RawMessage → Except Error α} {x : α} (h : c.unmarshalClaim name decode = .ok x) :
    ∃ raw, c.lookup name = some raw ∧ decode raw = .ok x := by
  rw [unmarshalClaim] at h
  split at h
  · cases h
  · next raw hraw => exact ⟨raw, hraw, h⟩

namespace Authenticator

variable (a : Authenticator)

/-- The claims support the user: the required ones are there, and the name and the
    groups are values of the claims for them. The claim with the groups may have one
    of the values `group`. -/
structure Supported (c : Claims) (group : RawMessage → Prop) (user : UserInfo) : Prop where
  required : ∀ entry ∈ a.requiredClaims.entries,
    ∃ raw, c.lookup entry.1 = some raw ∧ e.unmarshalString raw = .ok entry.2
  name : ∃ raw username, c.lookup a.usernameClaim = some raw ∧
    e.unmarshalString raw = .ok username ∧ user.name = a.usernamePrefix ++ username
  email : a.usernameClaim = "email" → ∀ raw, c.lookup "email_verified" = some raw →
    e.unmarshalBool raw = .ok true
  groups : ∀ g ∈ user.groups, ∃ raw values value, group raw ∧
    unmarshalStringOrArray e raw = .ok values ∧ value ∈ values ∧ g = a.groupsPrefix ++ value

/-- The claims of an ID token support the user; only the one with the groups may be
    distributed. -/
def Sound (c : Claims) (user : UserInfo) : Prop :=
  a.Supported e c
    (fun raw => c.lookup a.groupsClaim = some raw ∨ ∃ r ∈ a.resolver, r.Distributed e c raw) user

variable {e a}

/-- Every required claim was compared. -/
theorem checkRequired_eq_ok {c : Claims} {l : List (Sigma fun _ : String => String)} {u : Unit}
    (h : checkRequired e c l = .ok u) : ∀ entry ∈ l,
      ∃ raw, c.lookup entry.1 = some raw ∧ e.unmarshalString raw = .ok entry.2 := by
  induction l with
  | nil => exact fun _ hentry => absurd hentry List.not_mem_nil
  | cons first l ih =>
    obtain ⟨claim, value⟩ := first
    rw [checkRequired] at h
    split_ifs at h with hnone
    obtain ⟨claimValue, hvalue, h⟩ := bind_eq_ok h
    rw [mapError_eq_ok] at hvalue
    split_ifs at h with heq
    rw [not_not] at heq
    rw [List.forall_mem_cons]
    refine ⟨?_, ih h⟩
    rw [← heq]
    exact Claims.unmarshalClaim_eq_ok hvalue

/-- An email that the token speaks of is verified. -/
theorem checkEmail_eq_ok {c : Claims} {u : Unit} (h : a.checkEmail e c = .ok u)
    (hemail : a.usernameClaim = "email") {raw : RawMessage}
    (hraw : c.lookup "email_verified" = some raw) : e.unmarshalBool raw = .ok true := by
  rw [checkEmail, if_pos ⟨hemail, by rw [hraw]; rfl⟩] at h
  obtain ⟨emailVerified, hverified, h⟩ := bind_eq_ok h
  obtain ⟨raw', hraw', hdecode⟩ := Claims.unmarshalClaim_eq_ok (mapError_eq_ok.1 hverified)
  cases hraw.symm.trans hraw'
  cases emailVerified with
  | false => cases h
  | true => exact hdecode

theorem groups_eq_ok {c : Claims} {groups : List String} (h : a.groups e c = .ok groups)
    {g : String} (hg : g ∈ groups) : ∃ raw, c.lookup a.groupsClaim = some raw ∧
      unmarshalStringOrArray e raw = .ok groups := by
  rw [Authenticator.groups] at h
  split_ifs at h with hclaim
  · exact Claims.unmarshalClaim_eq_ok (mapError_eq_ok.1 h)
  · cases h
    exact absurd hg List.not_mem_nil

/-- Nothing is prefixed where the prefix is empty. -/
theorem ite_append (p s : String) : (if p ≠ "" then p ++ s else s) = p ++ s := by
  split_ifs with hp
  · rfl
  · rw [not_not.1 hp, String.empty_append]

theorem ite_map_append (p : String) (l : List String) :
    (if p ≠ "" then l.map (p ++ ·) else l) = l.map (p ++ ·) := by
  split_ifs with hp
  · rfl
  · simp [not_not.1 hp]

/-- The user is supported by the claims it is read off. -/
theorem identify_supported {c : Claims} {user : UserInfo} (h : a.identify e c = .ok user) :
    a.Supported e c (fun raw => c.lookup a.groupsClaim = some raw) user := by
  obtain ⟨username, hname, h⟩ := bind_eq_ok h
  obtain ⟨_, hemail, h⟩ := bind_eq_ok h
  obtain ⟨groups, hgroups, h⟩ := bind_eq_ok h
  obtain ⟨_, hrequired, h⟩ := bind_eq_ok h
  obtain ⟨raw, hraw, hdecode⟩ := Claims.unmarshalClaim_eq_ok (mapError_eq_ok.1 hname)
  cases h
  constructor
  · exact checkRequired_eq_ok hrequired
  · exact ⟨raw, username, hraw, hdecode, ite_append _ _⟩
  · exact fun husername raw hraw => checkEmail_eq_ok hemail husername hraw
  · intro g hg
    have hmap : g ∈ groups.map (a.groupsPrefix ++ ·) := by
      rw [← ite_map_append]
      exact hg
    obtain ⟨value, hvalue, rfl⟩ := List.mem_map.1 hmap
    obtain ⟨raw, hraw, hdecode⟩ := groups_eq_ok hgroups hvalue
    exact ⟨raw, groups, value, hraw, hdecode, hvalue, rfl⟩

/-! ## What is in the ID token -/

theorem expandClaims_eq_ok {c c' : Claims} (h : a.expandClaims e c = .ok c') :
    c' = c ∨ ∃ r ∈ a.resolver, ∃ value, r.Distributed e c value ∧
      c' = c.insert a.groupsClaim value := by
  rw [expandClaims] at h
  split at h
  · cases h
    exact .inl rfl
  · next r hr =>
    rcases ClaimResolver.expand_eq_ok (mapError_eq_ok.1 h) with hc' | ⟨value, hvalue, hc'⟩
    · exact .inl hc'
    · rw [a.resolver_claim r hr] at hc'
      exact .inr ⟨r, hr, value, hvalue, hc'⟩

theorem Supported.mem_of_required {c : Claims} {group : RawMessage → Prop} {user : UserInfo}
    (h : a.Supported e c group user) {k : String} (hk : k ∈ a.requiredClaims) : k ∈ c := by
  obtain ⟨entry, hentry, rfl⟩ := List.mem_map.1 (AList.mem_keys.1 hk)
  obtain ⟨raw, hraw, -⟩ := h.required entry hentry
  rw [← AList.lookup_isSome, hraw]
  rfl

theorem Supported.mem_usernameClaim {c : Claims} {group : RawMessage → Prop} {user : UserInfo}
    (h : a.Supported e c group user) : a.usernameClaim ∈ c := by
  obtain ⟨raw, -, hraw, -⟩ := h.name
  rw [← AList.lookup_isSome, hraw]
  rfl

/-- The claims that are not in question may be read off the token. -/
theorem sound_insert_iff {c : Claims} {value : RawMessage} {user : UserInfo}
    {r : ClaimResolver} (hr : r ∈ a.resolver) (hvalue : r.Distributed e c value)
    (h : a.Supported e (c.insert a.groupsClaim value)
      (fun raw => (c.insert a.groupsClaim value).lookup a.groupsClaim = some raw) user) :
    a.Sound e c user ↔ a.groupsClaim ∉ a.requiredClaims ∧ a.groupsClaim ≠ a.usernameClaim := by
  have habsent : a.groupsClaim ∉ c := by
    rw [← a.resolver_claim r hr]
    exact hvalue.absent
  have hlookup {k : String} (hk : k ≠ a.groupsClaim) :
      (c.insert a.groupsClaim value).lookup k = c.lookup k := AList.lookup_insert_ne hk
  constructor
  -- The token itself does not have the claim that was resolved.
  · intro hsound
    refine ⟨fun hmem => habsent (hsound.mem_of_required hmem), fun heq => habsent ?_⟩
    rw [heq]
    exact hsound.mem_usernameClaim
  · rintro ⟨hrequired, hname⟩
    constructor
    · intro entry hentry
      have hne : entry.1 ≠ a.groupsClaim := by
        rintro heq
        exact hrequired (AList.mem_keys.2 (heq ▸ List.mem_map_of_mem hentry))
      rw [← hlookup hne]
      exact h.required entry hentry
    · rw [← hlookup hname.symm]
      exact h.name
    -- A claim that was resolved is not there in the token, so that it is another one.
    · intro hemail raw hraw
      have hne : "email_verified" ≠ a.groupsClaim := by
        rintro heq
        rw [heq, AList.lookup_eq_none.2 habsent] at hraw
        cases hraw
      exact h.email hemail raw ((hlookup hne).trans hraw)
    · intro g hg
      obtain ⟨raw, values, value', hraw, hrest⟩ := h.groups g hg
      rw [AList.lookup_insert] at hraw
      cases hraw
      exact ⟨value, values, value', .inr ⟨r, hr, hvalue⟩, hrest⟩

/-- What happens to a token that is accepted. -/
theorem authenticateToken_ok {ctx : Context} {token : String}
    (hok : (a.authenticateToken e ctx token).ok = true) :
    ∃ c c' user, a.verifiedClaims ctx token = .ok c ∧ a.expandClaims e c = .ok c' ∧
      a.identify e c' = .ok user ∧
      a.authenticateToken e ctx token = { response := some { user := some user }, ok := true } := by
  rw [authenticateToken] at hok ⊢
  split_ifs at hok with hissuer
  rw [if_neg hissuer]
  split at hok
  · cases hok
  · next user huser =>
    obtain ⟨c, hc, h⟩ := bind_eq_ok huser
    obtain ⟨c', hc', h⟩ := bind_eq_ok h
    exact ⟨c, c', user, hc, hc', h, rfl⟩

/-- A token that is accepted has claims that support the user, but for the claim
    with the groups if it is required, or has the name, and is not in the token. -/
theorem authenticateToken_sound_iff {ctx : Context} {token : String}
    (hok : (a.authenticateToken e ctx token).ok = true) :
    ∃ c user, a.verifiedClaims ctx token = .ok c ∧
      a.authenticateToken e ctx token = { response := some { user := some user }, ok := true } ∧
      (a.Sound e c user ↔
        (a.groupsClaim ∈ a.requiredClaims ∨ a.groupsClaim = a.usernameClaim →
          a.groupsClaim ∈ c)) := by
  obtain ⟨c, c', user, hc, hc', huser, hres⟩ := authenticateToken_ok hok
  refine ⟨c, user, hc, hres, ?_⟩
  have hsupported := identify_supported huser
  rcases expandClaims_eq_ok hc' with rfl | ⟨r, hr, value, hvalue, rfl⟩
  · -- Nothing was added: what is required, and what has the name, is in the token.
    have hsound : a.Sound e c' user :=
      ⟨hsupported.required, hsupported.name, hsupported.email, fun g hg => by
        obtain ⟨raw, values, value, hraw, hrest⟩ := hsupported.groups g hg
        exact ⟨raw, values, value, .inl hraw, hrest⟩⟩
    refine iff_of_true hsound ?_
    rintro (hmem | heq)
    · exact hsupported.mem_of_required hmem
    · rw [heq]
      exact hsupported.mem_usernameClaim
  · have habsent : a.groupsClaim ∉ c := by
      rw [← a.resolver_claim r hr]
      exact hvalue.absent
    rw [sound_insert_iff hr hvalue hsupported]
    tauto

end Authenticator

/-- Decodes a JSON string without escapes. -/
def exampleString (raw : RawMessage) : Except Error String :=
  match raw.toList with
  | '"' :: cs => if cs.getLast? = some '"' then .ok (String.ofList cs.dropLast)
    else .error "unexpected end of JSON input"
  | _ => .error "json: cannot unmarshal value into Go value of type string"

/-- Decodes a JSON object with one member, whose value has the given decoder. -/
def exampleObject {α : Type} (decode : RawMessage → Except Error α) (raw : RawMessage) :
    Except Error (AList fun _ : String => α) :=
  if hasPrefix raw "\x7b" && hasSuffix raw "\x7d" then
    match splitN (trimSuffix (trimPrefix raw "\x7b") "\x7d") ':' 2 with
    | [key, value] => do return AList.insert (← exampleString key) (← decode value) ∅
    | _ => .error "invalid character after object key"
  else .error "json: cannot unmarshal value into Go value of type map"

/-- The member of an object, if it is that with the key. -/
def exampleMember (key : String) (raw : RawMessage) : Except Error String :=
  (exampleObject exampleString raw).map fun members => (members.lookup key).getD ""

/-- A token of `https://issuer`, with a signature. -/
def exampleToken (signature : String) : String :=
  "e30.eyJpc3MiOiJodHRwczovL2lzc3VlciJ9." ++ signature

/-- An environment with small decoders, and one endpoint for groups. -/
def exampleEnv : OidcEnv where
  deps := .plain
  corruptInput s := "illegal base64 data: " ++ s
  unmarshalIssuer payload :=
    exampleMember "iss" (String.ofList (payload.map fun c => Char.ofNat c.toNat))
  unmarshalString := exampleString
  unmarshalBool raw := if raw = "true" then .ok true else if raw = "false" then .ok false
    else .error "json: cannot unmarshal value into Go value of type bool"
  unmarshalStrings raw :=
    if hasPrefix raw "[" && hasSuffix raw "]" then
      (split (trimSuffix (trimPrefix raw "[") "]") ',').mapM exampleString
    else .error "json: cannot unmarshal value into Go value of type []string"
  unmarshalClaimNames := exampleObject exampleString
  unmarshalClaimSources :=
    exampleObject fun raw => (exampleMember "endpoint" raw).map fun url => { url }
  newRequest url := if hasPrefix url "https://" then none else some "missing protocol scheme"
  send url _ :=
    if url = "https://claims" then
      .ok { statusCode := 200, status := "200 OK", body := some (exampleToken "claims") }
    else .ok { statusCode := 404, status := "404 Not Found", body := some "" }
  newPool file := if file = "ca.pem" then none else some "no such file or directory"

/-- A verifier for one token. -/
def exampleVerifier (signature : String) (claims : Claims) : Verifier := fun _ token =>
  if token = exampleToken signature then .ok ⟨.ok claims⟩
  else .error "failed to verify signature"

/-- The claims of an ID token that leaves the groups to an endpoint. -/
def delegating : Claims :=
  ((AList.insert "_claim_sources" "\x7b\"src1\":\x7b\"endpoint\":\"https://claims\"\x7d\x7d"
    ∅).insert "_claim_names" "\x7b\"groups\":\"src1\"\x7d").insert "sub" "\"alice\""

/-- An authenticator with the required claims. The token from the endpoint has the
    group `admin`. -/
def delegated (requiredClaims : AList fun _ : String => String) : Authenticator where
  issuerURL := "https://issuer"
  usernameClaim := "sub"
  groupsClaim := "groups"
  requiredClaims
  verifier := some (exampleVerifier "id" delegating)
  resolver := some
    { claim := "groups"
      verifierPerIssuer := fun iss =>
        if iss = "https://issuer" then
          some (exampleVerifier "claims" (AList.insert "groups" "\"admin\"" ∅))
        else none }
  resolver_claim := by
    rintro _ ⟨⟩
    rfl

theorem delegated_sound : ∃ c user,
    (delegated ∅).verifiedClaims {} (exampleToken "id") = .ok c ∧
    (delegated ∅).authenticateToken exampleEnv {} (exampleToken "id") =
      { response := some { user := some user }, ok := true } ∧
    (delegated ∅).Sound exampleEnv c user := by
  have hok : ((delegated ∅).authenticateToken exampleEnv {} (exampleToken "id")).ok = true := by
    decide +kernel
  obtain ⟨c, user, hc, hres, hsound⟩ := Authenticator.authenticateToken_sound_iff hok
  refine ⟨c, user, hc, hres, hsound.2 ?_⟩
  rintro (hmem | heq)
  · exact absurd hmem (AList.notMem_empty _)
  · exact absurd heq (by decide)

/-- The group is required in the ID token, where there is none. -/
theorem delegated_admin :
    ((delegated (AList.insert "groups" "admin" ∅)).authenticateToken exampleEnv {}
        (exampleToken "id")).ok = true ∧
      (delegated (AList.insert "groups" "admin" ∅)).verifiedClaims {} (exampleToken "id") =
        .ok delegating ∧
      "groups" ∉ delegating ∧
      ∀ user, ¬ (delegated (AList.insert "groups" "admin" ∅)).Sound exampleEnv delegating user := by
  have habsent : "groups" ∉ delegating := by
    rw [AList.mem_keys]
    decide
  refine ⟨by decide +kernel, rfl, habsent, fun user hsound => habsent ?_⟩
  apply hsound.mem_of_required
  rw [AList.mem_keys]
  decide

end Apiserver.Authentication.Oidc
