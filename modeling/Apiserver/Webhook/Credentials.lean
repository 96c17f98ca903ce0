import Apiserver.Basic
import Apiserver.Go.Encoding
import Apiserver.Go.Net

/-!
# Credentials for webhooks

A webhook is called with credentials from a kubeconfig, whose entries are named after the
hosts they are for (`pkg/util/webhook/authentication.go`). An entry `*.d` is for all hosts in
the domain `d`. The entry with the most specific name is to be used, and none for another
domain.

* `BestMatch`: what the most specific entry for a name is, and `matchName_eq_some_iff`: the
  search over the parts of a name finds it;
* `Chosen`: the order of the matches and of what is used without one, and `credentials_iff`:
  the resolver follows it;
* `clientConfig_mostSpecific`: so the entry `*.d` is used for hosts in `d` only, if it is not the
  entry of the current context;
* `bracketed_uses_suffix`: the host may be written in brackets.
-/

namespace Apiserver.Webhook

open Go

variable {ε : Type}

/-! ## Kubeconfigs -/

/-- `AuthInfo` of a kubeconfig, where `ε` are the settings of a credential plugin. -/
structure AuthInfo (ε : Type) where
  clientCertificate : String := ""
  clientCertificateData : Bytes := []
  clientKey : String := ""
  clientKeyData : Bytes := []
  token : String := ""
  tokenFile : String := ""
  impersonate : String := ""
  impersonateGroups : List String := []
  impersonateUserExtra : List (String × List String) := []
  username : String := ""
  password : String := ""
  exec : Option ε := none
  /-- Whether there is an auth provider. -/
  authProvider : Bool := false

/-- The fields of `rest.Config` that are set here; the timeout is in seconds. -/
structure RestConfig (ε : Type) where
  bearerToken : String := ""
  bearerTokenFile : String := ""
  impersonate : String × List String × List (String × List String) := ("", [], [])
  certFile : String := ""
  certData : Bytes := []
  keyFile : String := ""
  keyData : Bytes := []
  username : String := ""
  password : String := ""
  execProvider : Option ε := none
  userAgent : String := ""
  timeout : ℕ := 0

/-- The kubeconfig; of a context, only the name of its entry is read. -/
structure Kubeconfig (ε : Type) where
  authInfos : AList fun _ : String => AuthInfo ε
  contexts : AList fun _ : String => String := ∅
  currentContext : String := ""

/-- The files, and the config for use in a cluster. -/
structure Env (ε : Type) where
  readFile : String → Except Error String
  inClusterConfig : Except Error (RestConfig ε)

/-- `setGlobalDefaults`. -/
def setGlobalDefaults (config : RestConfig ε) : RestConfig ε :=
  { config with userAgent := "kube-apiserver-admission", timeout := 30 }

/-- The token of `restConfigFromKubeconfig`. -/
def setToken (env : Env ε) (auth : AuthInfo ε) (config : RestConfig ε) :
    Except Error (RestConfig ε) :=
  if auth.token.length > 0 then
    .ok { config with bearerToken := auth.token, bearerTokenFile := auth.tokenFile }
  else if auth.tokenFile.length > 0 then
    (env.readFile auth.tokenFile).map fun tokenBytes =>
      { config with bearerToken := tokenBytes, bearerTokenFile := auth.tokenFile }
  else .ok config

/-- `restConfigFromKubeconfig`. -/
def restConfigFromKubeconfig (env : Env ε) (auth : AuthInfo ε) : Except Error (RestConfig ε) := do
  let config ← setToken env auth {}
  let config := if auth.impersonate.length > 0 then
      { config with
        impersonate := (auth.impersonate, auth.impersonateGroups, auth.impersonateUserExtra) }
    else config
  let config :=
    if auth.clientCertificate.length > 0 ∨ auth.clientCertificateData.length > 0 then
      { config with
        certFile := auth.clientCertificate
        certData := auth.clientCertificateData
        keyFile := auth.clientKey
        keyData := auth.clientKeyData }
    else config
  let config := if auth.username.length > 0 ∨ auth.password.length > 0 then
      { config with username := auth.username, password := auth.password }
    else config
  let config := if auth.exec.isSome then { config with execProvider := auth.exec } else config
  if auth.authProvider then .error "auth provider not supported"
  else .ok (setGlobalDefaults config)

/-! ## The resolver -/

/-- What a webhook is called with: an entry of the kubeconfig, the config of the cluster, or no
    credentials. -/
inductive Credentials (ε : Type)
  | entry (name : String) (auth : AuthInfo ε)
  | inCluster (config : RestConfig ε)
  | anonymous

/-- The config that is made of the credentials. -/
def Credentials.config (env : Env ε) : Credentials ε → Except Error (RestConfig ε)
  | .entry _ auth => restConfigFromKubeconfig env auth
  | .inCluster config => .ok (setGlobalDefaults config)
  | .anonymous => .ok (setGlobalDefaults {})

namespace Kubeconfig

variable (k : Kubeconfig ε)

/-- The loop over the parts of a name, from the second one on. -/
def starMatch : List String → Option (String × AuthInfo ε)
  | _ :: step :: steps =>
    let nickName := "*." ++ join (step :: steps) "."
    match k.authInfos.lookup nickName with
    | some auth => some (nickName, auth)
    | none => starMatch (step :: steps)
  | _ => none

/-- The exact match for a name, or the star prefixed match. -/
def matchName (target : String) : Option (String × AuthInfo ε) :=
  match k.authInfos.lookup target with
  | some auth => some (target, auth)
  | none => k.starMatch (split target '.')

/-- The matches for the host, if the port is the default. -/
def matchHost (target : String) : Option (String × AuthInfo ε) :=
  match splitHostPort target with
  | some (host, port) => if port = "443" then k.matchName host else none
  | none => none

/-- The name of the entry of the current context. -/
def currentAuthInfo : Option String :=
  if k.currentContext.length > 0 then
    match k.contexts.lookup k.currentContext with
    | some authInfo => if authInfo.length > 0 then some authInfo else none
    | none => none
  else none

/-- What `clientConfig` decides on, with the name it is found under. -/
def credentials (env : Env ε) (target : String) : Credentials ε :=
  match k.matchName target with
  | some (name, auth) => .entry name auth
  | none =>
    match k.matchHost target with
    | some (name, auth) => .entry name auth
    | none =>
      match
        if target = "kubernetes.default.svc:443" then env.inClusterConfig.toOption else none with
      | some config => .inCluster config
      | none =>
        match k.authInfos.lookup "*" with
        | some auth => .entry "*" auth
        | none =>
          match k.currentAuthInfo with
          | none => .anonymous
          | some name =>
            match k.authInfos.lookup name with
            | some auth => .entry name auth
            | none => .anonymous

/-- `clientConfig`, as `ClientConfigFor` calls it. -/
def clientConfig (env : Env ε) (target : String) : Except Error (RestConfig ε) :=
  (k.credentials env target).config env

/-- `ClientConfigForService`. -/
def clientConfigForService (env : Env ε) (serviceName serviceNamespace : String)
    (servicePort : ℤ) : Except Error (RestConfig ε) :=
  k.clientConfig env
    (joinHostPort (serviceName ++ "." ++ serviceNamespace ++ ".svc") (toString servicePort))

end Kubeconfig

/-! ## Suffixes of a name -/

/-- The part of a name after one of its dots. -/
def DotSuffix (s t : String) : Prop := ∃ p, t = p ++ "." ++ s

theorem DotSuffix.length_lt {s t : String} (h : DotSuffix s t) : s.length < t.length := by
  obtain ⟨p, rfl⟩ := h
  rw [String.length_append, String.length_append, show ".".length = 1 from rfl]
  omega

theorem DotSuffix.eq_of_length {s s' t : String} (h : DotSuffix s t) (h' : DotSuffix s' t)
    (hlength : s.length = s'.length) : s = s' := by
  obtain ⟨p, rfl⟩ := h
  obtain ⟨p', heq⟩ := h'
  have hlist := congrArg String.toList heq
  rw [String.toList_append, String.toList_append (s := p' ++ ".")] at hlist
  exact String.toList_inj.1 (List.append_inj_right' hlist hlength)

theorem not_dotSuffix {s t : String} (h : '.' ∉ t.toList) : ¬DotSuffix s t := by
  rintro ⟨p, rfl⟩
  simp at h

/-- After the first dot of a name there is the rest, or a part of it. -/
theorem dotSuffix_append_iff {step rest s : String} (hstep : '.' ∉ step.toList) :
    DotSuffix s (step ++ "." ++ rest) ↔ s = rest ∨ DotSuffix s rest := by
  constructor
  · rintro ⟨p, heq⟩
    have hlist : step.toList ++ '.' :: rest.toList = p.toList ++ '.' :: s.toList := by
      simpa using congrArg String.toList heq
    rcases List.append_eq_append_iff.1 hlist with ⟨l, hp, hl⟩ | ⟨l, hs, hl⟩
    · cases l with
      | nil => exact .inl (String.toList_inj.1 (List.cons.inj hl).2).symm
      | cons c l =>
        obtain ⟨-, hrest⟩ := List.cons.inj hl
        exact .inr ⟨String.ofList l, String.toList_inj.1 (by simpa using hrest)⟩
    · -- The dot is not in the first part.
      cases l with
      | nil => exact .inl (String.toList_inj.1 (List.cons.inj hl).2)
      | cons c l =>
        obtain ⟨rfl, -⟩ := List.cons.inj hl
        exact absurd (by rw [hs]; simp) hstep
  · rintro (rfl | ⟨p, rfl⟩)
    · exact ⟨step, rfl⟩
    · exact ⟨step ++ "." ++ p, by simp only [String.append_assoc]⟩

namespace Kubeconfig

variable {k : Kubeconfig ε}

/-- The entry `*.s`, where `s` is the longest part of the name after a dot for which there is
    one. -/
def LongestStar (k : Kubeconfig ε) (t name : String) (auth : AuthInfo ε) : Prop :=
  ∃ s, name = "*." ++ s ∧ DotSuffix s t ∧ k.authInfos.lookup name = some auth ∧
    ∀ s', DotSuffix s' t → k.authInfos.lookup ("*." ++ s') ≠ none → s'.length ≤ s.length

/-- One pattern is the longest. -/
theorem LongestStar.unique {t name name' : String} {auth auth' : AuthInfo ε}
    (h : k.LongestStar t name auth) (h' : k.LongestStar t name' auth') :
    (name, auth) = (name', auth') := by
  obtain ⟨s, rfl, hs, hauth, hmax⟩ := h
  obtain ⟨s', rfl, hs', hauth', hmax'⟩ := h'
  have hle := hmax s' hs' (by rw [hauth']; exact Option.some_ne_none _)
  have hle' := hmax' s hs (by rw [hauth]; exact Option.some_ne_none _)
  obtain rfl := hs.eq_of_length hs' (by omega)
  rw [hauth] at hauth'
  rw [Option.some.inj hauth']

variable {auth : AuthInfo ε} {target : String}

theorem LongestStar.here {step rest : String} (hstep : '.' ∉ step.toList)
    (h : k.authInfos.lookup ("*." ++ rest) = some auth) :
    k.LongestStar (step ++ "." ++ rest) ("*." ++ rest) auth := by
  refine ⟨rest, rfl, (dotSuffix_append_iff hstep).2 (.inl rfl), h, fun s' hs' _ => ?_⟩
  rcases (dotSuffix_append_iff hstep).1 hs' with rfl | hs'
  · exact Nat.le_refl _
  · exact hs'.length_lt.le

theorem LongestStar.further {step rest name : String} (hstep : '.' ∉ step.toList)
    (hnone : k.authInfos.lookup ("*." ++ rest) = none) (h : k.LongestStar rest name auth) :
    k.LongestStar (step ++ "." ++ rest) name auth := by
  obtain ⟨s, rfl, hs, hauth, hmax⟩ := h
  refine ⟨s, rfl, (dotSuffix_append_iff hstep).2 (.inr hs), hauth, fun s' hs' hentry => ?_⟩
  rcases (dotSuffix_append_iff hstep).1 hs' with rfl | hs'
  · exact absurd hnone hentry
  · exact hmax s' hs' hentry

theorem starMatch_cons_cons (step step' : String) (steps : List String) :
    k.starMatch (step :: step' :: steps) =
      ((k.authInfos.lookup ("*." ++ join (step' :: steps) ".")).map fun auth =>
        ("*." ++ join (step' :: steps) ".", auth)).or (k.starMatch (step' :: steps)) := by
  rw [starMatch]
  cases k.authInfos.lookup ("*." ++ join (step' :: steps) ".") <;> rfl

/-- What the loop finds. -/
theorem starMatch_spec {steps : List String} (hsteps : ∀ s ∈ steps, '.' ∉ s.toList)
    (hne : steps ≠ []) :
    (∀ name auth, k.starMatch steps = some (name, auth) →
      k.LongestStar (join steps ".") name auth) ∧
    (k.starMatch steps = none →
      ∀ s, DotSuffix s (join steps ".") → k.authInfos.lookup ("*." ++ s) = none) := by
  induction steps with
  | nil => exact absurd rfl hne
  | cons step steps ih =>
    rw [List.forall_mem_cons] at hsteps
    obtain ⟨hstep, hsteps⟩ := hsteps
    cases steps with
    -- A name of one part matches no star.
    | nil =>
      refine ⟨fun name auth h => ?_, fun _ s hs => absurd hs (not_dotSuffix hstep)⟩
      cases h
    | cons step' steps =>
      obtain ⟨ihsome, ihnone⟩ := ih hsteps (List.cons_ne_nil _ _)
      have hjoin : join (step :: step' :: steps) "." =
          step ++ "." ++ join (step' :: steps) "." := by
        rw [join]
        exact fun h => absurd h (List.cons_ne_nil _ _)
      rw [hjoin, starMatch_cons_cons]
      cases hlookup : k.authInfos.lookup ("*." ++ join (step' :: steps) ".") with
      | some auth =>
        refine ⟨fun name auth' h => ?_, fun h => absurd h (Option.some_ne_none _)⟩
        cases h
        exact .here hstep hlookup
      | none =>
        refine ⟨fun name auth h => (ihsome name auth h).further hstep hlookup, fun h s hs => ?_⟩
        rcases (dotSuffix_append_iff hstep).1 hs with rfl | hs
        · exact hlookup
        · exact ihnone h s hs

/-! ## The most specific match -/

/-- The entry for a name: the one with that name, or else the one for the longest part of it. -/
def BestMatch (k : Kubeconfig ε) (t name : String) (auth : AuthInfo ε) : Prop :=
  (name = t ∧ k.authInfos.lookup t = some auth) ∨
    (k.authInfos.lookup t = none ∧ k.LongestStar t name auth)

/-- There is no entry for a name. -/
structure NoMatch (k : Kubeconfig ε) (t : String) : Prop where
  exact : k.authInfos.lookup t = none
  star : ∀ s, DotSuffix s t → k.authInfos.lookup ("*." ++ s) = none

theorem starMatch_split (t : String) :
    (∀ name auth, k.starMatch (split t '.') = some (name, auth) → k.LongestStar t name auth) ∧
    (k.starMatch (split t '.') = none →
      ∀ s, DotSuffix s t → k.authInfos.lookup ("*." ++ s) = none) := by
  have hjoin : join (split t '.') "." = t := join_split t '.'
  have hne : split t '.' ≠ [] := by simp [split, List.splitOn_ne_nil]
  have hspec := starMatch_spec (k := k) (fun s hs => notMem_of_mem_split hs) hne
  rwa [hjoin] at hspec

/-- The search returns the best match, -/
theorem matchName_eq_some_iff {t name : String} :
    k.matchName t = some (name, auth) ↔ k.BestMatch t name auth := by
  obtain ⟨hsome, hnone⟩ := starMatch_split (k := k) t
  rw [matchName, BestMatch]
  cases hexact : k.authInfos.lookup t with
  | some auth' =>
    simp only [Option.some.injEq, Prod.mk.injEq, reduceCtorEq, false_and, or_false]
    rw [@eq_comm _ t]
  | none =>
    simp only [reduceCtorEq, and_false, true_and, false_or]
    refine ⟨hsome name auth, fun hlongest => ?_⟩
    cases hstar : k.starMatch (split t '.') with
    | some found => rw [hlongest.unique (hsome found.1 found.2 hstar)]
    | none =>
      obtain ⟨s, rfl, hs, hauth, -⟩ := hlongest
      rw [hnone hstar s hs] at hauth
      cases hauth

/-- and nothing if there is none. -/
theorem matchName_eq_none_iff {t : String} : k.matchName t = none ↔ k.NoMatch t := by
  constructor
  · intro h
    cases hexact : k.authInfos.lookup t with
    | some auth =>
      rw [matchName, hexact] at h
      cases h
    | none =>
      rw [matchName, hexact] at h
      exact ⟨hexact, (starMatch_split t).2 h⟩
  · rintro ⟨hexact, hstar⟩
    cases hmatch : k.matchName t with
    | none => rfl
    | some found =>
      rcases matchName_eq_some_iff.1 hmatch with ⟨-, hlookup⟩ | ⟨-, s, hname, hs, hlookup, -⟩
      · rw [hexact] at hlookup
        cases hlookup
      · rw [hname, hstar s hs] at hlookup
        cases hlookup

/-! ## The order of the matches -/

/-- No entry matches the target, with its port or, if that is the default, without it. -/
structure Unmatched (k : Kubeconfig ε) (target : String) : Prop where
  noTarget : k.NoMatch target
  noHost : ∀ host, splitHostPort target = some (host, "443") → k.NoMatch host

/-- The credentials of a cluster are used for its own API server, if there are any. -/
def UsesCluster (env : Env ε) (target : String) (config : RestConfig ε) : Prop :=
  target = "kubernetes.default.svc:443" ∧ env.inClusterConfig = .ok config

/-- The credentials for a target: of the best match for it, or else for its host, of the
    cluster, of the entry for all targets, or of the current context, in this order. -/
inductive Chosen (k : Kubeconfig ε) (env : Env ε) (target : String) : Credentials ε → Prop
  | target {name : String} {auth : AuthInfo ε} (h : k.BestMatch target name auth) :
      Chosen k env target (.entry name auth)
  | host {host name : String} {auth : AuthInfo ε} (htarget : k.NoMatch target)
      (hsplit : splitHostPort target = some (host, "443")) (h : k.BestMatch host name auth) :
      Chosen k env target (.entry name auth)
  | inCluster {config : RestConfig ε} (hun : k.Unmatched target)
      (h : UsesCluster env target config) : Chosen k env target (.inCluster config)
  | star {auth : AuthInfo ε} (hun : k.Unmatched target) (hcluster : ∀ c, ¬UsesCluster env target c)
      (h : k.authInfos.lookup "*" = some auth) : Chosen k env target (.entry "*" auth)
  | current {name : String} {auth : AuthInfo ε} (hun : k.Unmatched target)
      (hcluster : ∀ c, ¬UsesCluster env target c) (hstar : k.authInfos.lookup "*" = none)
      (hname : k.currentAuthInfo = some name) (h : k.authInfos.lookup name = some auth) :
      Chosen k env target (.entry name auth)
  | anonymous (hun : k.Unmatched target) (hcluster : ∀ c, ¬UsesCluster env target c)
      (hstar : k.authInfos.lookup "*" = none)
      (h : ∀ name, k.currentAuthInfo = some name → k.authInfos.lookup name = none) :
      Chosen k env target .anonymous

theorem matchHost_eq_some_iff {target name : String} :
    k.matchHost target = some (name, auth) ↔
      ∃ host, splitHostPort target = some (host, "443") ∧ k.BestMatch host name auth := by
  rw [matchHost]
  cases hsplit : splitHostPort target with
  | none => simp
  | some hostPort =>
    obtain ⟨host, port⟩ := hostPort
    by_cases hport : port = "443"
    · simp [hport, matchName_eq_some_iff]
    · simp [hport]

theorem matchHost_eq_none_iff :
    k.matchHost target = none ↔
      ∀ host, splitHostPort target = some (host, "443") → k.NoMatch host := by
  rw [matchHost]
  cases hsplit : splitHostPort target with
  | none => simp
  | some hostPort =>
    obtain ⟨host, port⟩ := hostPort
    by_cases hport : port = "443"
    · simp [hport, matchName_eq_none_iff]
    · simp [hport]

/-- The config of the cluster, where the resolver looks for it. -/
theorem cluster_eq_some_iff {env : Env ε} {config : RestConfig ε} :
    (if target = "kubernetes.default.svc:443" then env.inClusterConfig.toOption else none) =
      some config ↔ UsesCluster env target config := by
  rw [UsesCluster]
  split_ifs with htarget
  · cases henv : env.inClusterConfig <;> simp [Except.toOption, htarget]
  · simp [htarget]

theorem cluster_eq_none_iff {env : Env ε} :
    (if target = "kubernetes.default.svc:443" then env.inClusterConfig.toOption else none) =
      none ↔ ∀ config, ¬UsesCluster env target config := by
  rw [Option.eq_none_iff_forall_ne_some]
  exact forall_congr' fun config => not_congr cluster_eq_some_iff

/-- The resolver chooses as it should. -/
theorem chosen_credentials (k : Kubeconfig ε) (env : Env ε) (target : String) :
    k.Chosen env target (k.credentials env target) := by
  rw [credentials]
  cases htarget : k.matchName target with
  | some found => exact .target (matchName_eq_some_iff.1 htarget)
  | none =>
    have hno := matchName_eq_none_iff.1 htarget
    cases hhost : k.matchHost target with
    | some found =>
      obtain ⟨host, hsplit, hbest⟩ := matchHost_eq_some_iff.1 hhost
      exact .host hno hsplit hbest
    | none =>
      have hun : k.Unmatched target := ⟨hno, matchHost_eq_none_iff.1 hhost⟩
      dsimp only
      split
      case h_1 config hconfig => exact .inCluster hun (cluster_eq_some_iff.1 hconfig)
      case h_2 hconfig =>
        have hcluster := cluster_eq_none_iff.1 hconfig
        cases hstar : k.authInfos.lookup "*" with
        | some auth => exact .star hun hcluster hstar
        | none =>
          cases hname : k.currentAuthInfo with
          | none => exact .anonymous hun hcluster hstar fun name h => by rw [hname] at h; cases h
          | some name =>
            dsimp only
            cases hauth : k.authInfos.lookup name with
            | some auth => exact .current hun hcluster hstar hname hauth
            | none =>
              refine .anonymous hun hcluster hstar fun name' h => ?_
              rw [hname] at h
              rwa [← Option.some.inj h]

theorem Unmatched.matchName_eq (h : k.Unmatched target) :
    k.matchName target = none :=
  matchName_eq_none_iff.2 h.noTarget

theorem Unmatched.matchHost_eq (h : k.Unmatched target) :
    k.matchHost target = none :=
  matchHost_eq_none_iff.2 h.noHost

/-- The order says what is chosen, and the resolver chooses that. -/
theorem credentials_iff {env : Env ε} {cred : Credentials ε} :
    k.credentials env target = cred ↔ k.Chosen env target cred := by
  constructor
  · rintro rfl
    exact chosen_credentials k env target
  · intro h
    cases h with
    | target h => simp only [credentials, matchName_eq_some_iff.2 h]
    | host htarget hsplit h =>
      simp only [credentials, matchName_eq_none_iff.2 htarget,
        matchHost_eq_some_iff.2 ⟨_, hsplit, h⟩]
    | inCluster hun h =>
      simp only [credentials, hun.matchName_eq, hun.matchHost_eq, cluster_eq_some_iff.2 h]
    | star hun hcluster h =>
      simp only [credentials, hun.matchName_eq, hun.matchHost_eq, cluster_eq_none_iff.2 hcluster, h]
    | current hun hcluster hstar hname h =>
      simp only [credentials, hun.matchName_eq, hun.matchHost_eq, cluster_eq_none_iff.2 hcluster,
        hstar, hname, h]
    | anonymous hun hcluster hstar h =>
      simp only [credentials, hun.matchName_eq, hun.matchHost_eq, cluster_eq_none_iff.2 hcluster,
        hstar]
      cases hname : k.currentAuthInfo with
      | none => rfl
      | some name => simp only [h name hname]

/-! ## Domains -/

theorem BestMatch.hasSuffix {t d : String} (h : k.BestMatch t ("*." ++ d) auth) :
    hasSuffix t ("." ++ d) = true := by
  rw [hasSuffix_iff]
  rcases h with ⟨rfl, -⟩ | ⟨-, s, hname, ⟨p, rfl⟩, -⟩
  · exact ⟨"*", rfl⟩
  · have hs : d = s := by
      have := congrArg (trimPrefix · "*.") hname
      simpa using this
    exact ⟨p, by rw [hs, String.append_assoc]⟩

/-- A target is in a domain: it ends in it, maybe before the default port, or its host, in
    brackets before the default port, does. -/
def InDomain (d target : String) : Prop :=
  hasSuffix target ("." ++ d) = true ∨ hasSuffix target ("." ++ d ++ ":443") = true ∨
    ∃ host, target = "[" ++ host ++ "]:443" ∧ hasSuffix host ("." ++ d) = true

/-- The most specific credentials are used, and those of an entry `*.d` for targets in `d` only,
    if it is not the entry of the current context. -/
theorem clientConfig_mostSpecific (k : Kubeconfig ε) (env : Env ε) (target : String) :
    ∃ cred, (∀ cred', k.Chosen env target cred' ↔ cred' = cred) ∧
      k.clientConfig env target = cred.config env ∧
      ∀ d auth, cred = .entry ("*." ++ d) auth → k.currentAuthInfo ≠ some ("*." ++ d) →
        InDomain d target := by
  refine ⟨k.credentials env target, fun cred' => ?_, rfl, fun d auth hentry hcurrent => ?_⟩
  · rw [← credentials_iff, eq_comm]
  · have hchosen := credentials_iff.1 hentry
    generalize hname : "*." ++ d = name at hchosen hcurrent
    cases hchosen with
    | target h =>
      rw [← hname] at h
      exact .inl h.hasSuffix
    | host _ hsplit h =>
      rw [← hname] at h
      obtain ⟨p, hp⟩ := hasSuffix_iff.1 h.hasSuffix
      rcases splitHostPort_eq_some hsplit with heq | heq
      · refine .inr (.inl (hasSuffix_iff.2 ⟨p, ?_⟩))
        rw [heq, hp]
        simp only [String.append_assoc]
        rfl
      · refine .inr (.inr ⟨_, ?_, h.hasSuffix⟩)
        rw [heq, String.append_assoc]
        rfl
    | star _ _ h =>
      have := congrArg String.length hname
      rw [String.length_append, show "*.".length = 2 from rfl, show "*".length = 1 from rfl] at this
      omega
    | current _ _ _ hcur _ => exact absurd hcur hcurrent

/-- A kubeconfig with one entry, for the domain `3.4`. -/
def oneDomain : Kubeconfig Unit where
  authInfos := AList.singleton "*.3.4" { token := "secret" }

/-- Outside a cluster, and without files. -/
def outside : Env Unit where
  readFile _ := .error "no such file"
  inClusterConfig := .error "not in a cluster"

/-- An address with brackets neither ends in the domain nor in the domain and the port. -/
theorem bracketed_uses_suffix :
    ¬∀ target d auth, oneDomain.Chosen outside target (.entry ("*." ++ d) auth) →
      oneDomain.currentAuthInfo ≠ some ("*." ++ d) →
        hasSuffix target ("." ++ d) = true ∨ hasSuffix target ("." ++ d ++ ":443") = true ∨
          target = "*." ++ d := by
  intro h
  have hchosen : oneDomain.Chosen outside "[::ffff:1.2.3.4]:443"
      (.entry ("*." ++ "3.4") { token := "secret" }) := credentials_iff.1 (by rfl)
  exact absurd (h _ _ _ hchosen (by decide)) (by decide)

end Kubeconfig

end Apiserver.Webhook
