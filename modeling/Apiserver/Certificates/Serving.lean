import Apiserver.Authentication.ServiceAccount
import Apiserver.Basic
import Apiserver.Go.Encoding

/-!
# Dynamic serving certificates

A server takes its certificates from providers, whose content may change while it is serving
(`pkg/dynamiccertificates`). A controller looks at the content now and then. If it is not
that which is being served, the controller makes a TLS config of it, and serves that.

* `DynamicCertificateContent.equal_iff`: the comparison of contents is their equality;
* `lookup_buildNamedCertificates`: a name is served by the first certificate with that name
  explicitly, or else by the first one that is for it;
* `inStep_run`: the config that is served is always made of the current content;
* `content_run`: the current content is the last one that could be served;
* `syncCerts_inStep`: a config is made exactly if the content has changed, and a call that
  fails changes nothing.
-/

namespace Apiserver.Certificates

open Go

/-! ## Contents -/

/-- `certKeyContent`. -/
structure CertKeyContent where
  cert : Bytes := []
  key : Bytes := []
  deriving DecidableEq

/-- `sniCertKeyContent`. -/
structure SniCertKeyContent extends CertKeyContent where
  sniNames : List String := []
  deriving DecidableEq

/-- `caBundleContent`. -/
structure CaBundleContent where
  caBundle : Bytes := []
  deriving DecidableEq

/-- `dynamicCertificateContent`. -/
structure DynamicCertificateContent where
  clientCA : CaBundleContent := {}
  servingCert : CertKeyContent := {}
  sniCerts : List SniCertKeyContent := []
  deriving DecidableEq

/-- The loops over two slices of one length in `Equal`. -/
def equalLoop {α : Type} (eq : α → α → Bool) : List α → List α → Bool
  | a :: as, b :: bs => if !eq a b then false else equalLoop eq as bs
  | _, _ => true

/-- Whether two slices have one length and equal elements. -/
def slicesEqual {α : Type} (eq : α → α → Bool) (c rhs : List α) : Bool :=
  if c.length ≠ rhs.length then false else equalLoop eq c rhs

/-- `Equal` of `certKeyContent`. -/
def CertKeyContent.equal (c rhs : CertKeyContent) : Bool :=
  c.key == rhs.key && c.cert == rhs.cert

/-- `Equal` of `sniCertKeyContent`. -/
def SniCertKeyContent.equal (c rhs : SniCertKeyContent) : Bool :=
  if !slicesEqual (· == ·) c.sniNames rhs.sniNames then false
  else c.toCertKeyContent.equal rhs.toCertKeyContent

/-- `Equal` of `caBundleContent`. -/
def CaBundleContent.equal (c rhs : CaBundleContent) : Bool := c.caBundle == rhs.caBundle

/-- `Equal` of `dynamicCertificateContent`, where the other one may be nil. -/
def DynamicCertificateContent.equal (c : DynamicCertificateContent) :
    Option DynamicCertificateContent → Bool
  | none => false
  | some rhs =>
    if !c.clientCA.equal rhs.clientCA then false
    else if !c.servingCert.equal rhs.servingCert then false
    else slicesEqual SniCertKeyContent.equal c.sniCerts rhs.sniCerts

/-- The slices are compared element by element. -/
theorem slicesEqual_iff {α : Type} {eq : α → α → Bool} (heq : ∀ a b, eq a b = true ↔ a = b)
    (c rhs : List α) : slicesEqual eq c rhs = true ↔ c = rhs := by
  induction c generalizing rhs with
  | nil => cases rhs <;> simp [slicesEqual, equalLoop]
  | cons a as ih =>
    cases rhs with
    | nil => simp [slicesEqual]
    | cons b bs =>
      have hcons : slicesEqual eq (a :: as) (b :: bs) = (eq a b && slicesEqual eq as bs) := by
        simp only [slicesEqual, equalLoop, List.length_cons]
        by_cases hlen : as.length = bs.length <;> cases eq a b <;> simp [hlen]
      rw [hcons, Bool.and_eq_true, heq, ih, List.cons.injEq]

theorem CertKeyContent.equal_iff (c rhs : CertKeyContent) : c.equal rhs = true ↔ c = rhs := by
  obtain ⟨cert, key⟩ := c
  obtain ⟨cert', key'⟩ := rhs
  simp [equal, and_comm]

theorem SniCertKeyContent.equal_iff (c rhs : SniCertKeyContent) : c.equal rhs = true ↔ c = rhs := by
  obtain ⟨certKey, names⟩ := c
  obtain ⟨certKey', names'⟩ := rhs
  have heq : ∀ a b : String, (a == b) = true ↔ a = b := by simp
  have hnames := slicesEqual_iff heq names names'
  simp only [equal, mk.injEq, ← hnames, ← CertKeyContent.equal_iff]
  cases slicesEqual (fun a b : String => a == b) names names' <;> simp

/-- The comparison of contents is their equality. -/
theorem DynamicCertificateContent.equal_iff (c : DynamicCertificateContent)
    (rhs : Option DynamicCertificateContent) : c.equal rhs = true ↔ rhs = some c := by
  cases rhs with
  | none => simp [equal]
  | some rhs =>
    rw [Option.some.injEq, @eq_comm _ rhs c]
    obtain ⟨⟨ca⟩, serving, sni⟩ := c
    obtain ⟨⟨ca'⟩, serving', sni'⟩ := rhs
    have hserving := CertKeyContent.equal_iff serving serving'
    have hsni := slicesEqual_iff SniCertKeyContent.equal_iff sni sni'
    rw [mk.injEq, CaBundleContent.mk.injEq, ← hserving, ← hsni]
    simp only [equal, CaBundleContent.equal]
    by_cases hca : ca = ca' <;> cases serving.equal serving' <;> simp [hca]

/-! ## Building a config -/

/-- A certificate of `x509`. -/
structure X509Certificate where
  raw : Bytes
  commonName : String := ""
  dnsNames : List String := []

/-- The certificates of `tls` by the names they are for. -/
abbrev Named (χ : Type) := AList fun _ : String => χ

/-- The fields of `tls.Config` that the controller sets. -/
structure TLSConfig (χ : Type) where
  clientCAs : Option (List X509Certificate) := none
  certificates : List χ := []
  nameToCertificate : Named χ := ∅

/-- What is taken from `crypto`, `net` and golib, where `χ` are the certificates of `tls`. -/
structure X509 (χ : Type) where
  parseCertsPEM : Bytes → Except Error (List X509Certificate)
  x509KeyPair : Bytes → Bytes → Except Error χ
  /-- The first certificate of a chain. -/
  parseCertificate : χ → Except Error X509Certificate
  /-- Whether `net.ParseIP` is not nil. -/
  isIP : String → Bool
  validation : ServiceAccount.NameValidation
  /-- The `%q` verb, for bytes. -/
  quoteBytes : Bytes → String

/-- The order in which the named certificates are visited. -/
structure Order (χ : Type) where
  range : Named χ → List χ
  perm : ∀ m, (range m).Perm (m.entries.map Sigma.snd)

/-- The providers, by their names, and the config that is the same for every content. -/
structure Controller (χ : Type) where
  baseTLSConfig : TLSConfig χ := {}
  clientCA : Option String := none
  servingCert : Option String := none
  sniCerts : List String := []

variable {χ : Type} (d : Deps) (x : X509 χ)

/-- `getCertificateNames`. -/
def getCertificateNames (cert : X509Certificate) : List String :=
  let cn := cert.commonName
  let cnIsIP := x.isIP cn
  let cnIsValidDomain :=
    cn == "*" || (x.validation.isDNS1123Subdomain (trimPrefix cn "*.")).length == 0
  let names := if !cnIsIP && cnIsValidDomain then [cn] else []
  names ++ cert.dnsNames

/-- The names of a certificate. -/
def namesOf (cert : χ) : List String :=
  match x.parseCertificate cert with
  | .ok x509Cert => getCertificateNames x x509Cert
  -- Not possible: `X509KeyPair` has parsed the same bytes, to compare the key with that of the
  -- certificate, and fails if it cannot. The source ignores the error for this reason.
  | .error _ => []

/-- A certificate is set for some names. -/
def setNames (names : List String) (cert : χ) (m : Named χ) : Named χ :=
  names.foldl (fun m name => m.insert name cert) m

/-- The loop of `BuildNamedCertificates`, over the contents with their indices. -/
def namedLoop (providers : List String) :
    List (SniCertKeyContent × ℕ) → Named χ → Named χ → Except Error (Named χ × Named χ)
  | [], nameToCertificate, byNameExplicit => .ok (nameToCertificate, byNameExplicit)
  | (sni, i) :: l, nameToCertificate, byNameExplicit =>
    match x.x509KeyPair sni.cert sni.key with
    | .error err =>
      .error ("invalid SNI cert keypair [" ++ toString i ++ "/" ++ d.quote (providers.getD i "")
        ++ "]: " ++ err)
    | .ok cert =>
      let byNameExplicit := setNames sni.sniNames cert byNameExplicit
      let nameToCertificate :=
        if sni.sniNames.length = 0 then setNames (namesOf x cert) cert nameToCertificate
        else nameToCertificate
      namedLoop providers l nameToCertificate byNameExplicit

/-- `BuildNamedCertificates`. -/
def buildNamedCertificates (providers : List String) (sniCerts : List SniCertKeyContent) :
    Except Error (Named χ) :=
  -- Backwards, so that the earlier ones take precedence.
  match namedLoop d x providers sniCerts.zipIdx.reverse ∅ ∅ with
  | .error err => .error err
  | .ok (nameToCertificate, byNameExplicit) =>
    .ok (byNameExplicit.entries.foldl (fun m e => m.insert e.1 e.2) nameToCertificate)

section Named

variable {x} {name : String}

/-- The names of a certificate lead to it from then on. -/
theorem lookup_setNames (names : List String) (cert : χ) (m : Named χ) :
    (setNames names cert m).lookup name = if name ∈ names then some cert else m.lookup name := by
  induction names generalizing m with
  | nil => rfl
  | cons name' names ih =>
    have hcons : setNames (name' :: names) cert m = setNames names cert (m.insert name' cert) := rfl
    rw [hcons, ih]
    by_cases hname : name = name'
    · rw [hname, AList.lookup_insert, if_pos List.mem_cons_self, ite_self]
    · rw [AList.lookup_insert_ne hname]
      simp only [List.mem_cons, hname, false_or]

/-- What is set explicitly overrides the rest. -/
theorem lookup_foldl_insert {l : List (Σ _ : String, χ)} (hl : l.NodupKeys) (m : Named χ) :
    (l.foldl (fun m e => m.insert e.1 e.2) m).lookup name =
      (l.dlookup name).or (m.lookup name) := by
  induction l generalizing m with
  | nil => rfl
  | cons e l ih =>
    rw [List.nodupKeys_cons] at hl
    rw [List.foldl_cons, ih hl.2]
    by_cases hname : name = e.1
    · rw [hname, List.dlookup_eq_none.2 hl.1, AList.lookup_insert, List.dlookup_cons_eq,
        Option.none_or, Option.some_or]
    · rw [AList.lookup_insert_ne hname, List.dlookup_cons_ne _ _ hname]

variable (x name)

/-- The certificate of a content, if it has a name explicitly. -/
def explicit (sni : SniCertKeyContent) : Option χ :=
  if name ∈ sni.sniNames then (x.x509KeyPair sni.cert sni.key).toOption else none

/-- The certificate of a content without explicit names, if it is for a name. -/
def implicit (sni : SniCertKeyContent) : Option χ :=
  if sni.sniNames = [] then
    (x.x509KeyPair sni.cert sni.key).toOption.filter fun cert => name ∈ namesOf x cert
  else none

variable {x}

/-- Of the certificates with a name, the last of the list is found. -/
theorem lookup_namedLoop {providers : List String} {l : List (SniCertKeyContent × ℕ)}
    {m e m' e' : Named χ} (h : namedLoop d x providers l m e = .ok (m', e')) (name : String) :
    m'.lookup name = ((l.map Prod.fst).reverse.findSome? (implicit x name)).or (m.lookup name) ∧
      e'.lookup name =
        ((l.map Prod.fst).reverse.findSome? (explicit x name)).or (e.lookup name) := by
  induction l generalizing m e with
  | nil =>
    cases h
    exact ⟨rfl, rfl⟩
  | cons head l ih =>
    obtain ⟨sni, i⟩ := head
    rw [namedLoop] at h
    cases hcert : x.x509KeyPair sni.cert sni.key with
    | error err =>
      rw [hcert] at h
      cases h
    | ok cert =>
      rw [hcert] at h
      obtain ⟨him, hex⟩ := ih h
      have himplicit : (if sni.sniNames.length = 0 then setNames (namesOf x cert) cert m
          else m).lookup name = (implicit x name sni).or (m.lookup name) := by
        by_cases hnames : sni.sniNames = []
        · rw [implicit, if_pos hnames, if_pos (by rw [hnames]; rfl), lookup_setNames, hcert]
          by_cases hname : name ∈ namesOf x cert <;> simp [Except.toOption, Option.filter, hname]
        · rw [implicit, if_neg hnames, if_neg (by simpa using hnames), Option.none_or]
      have hexplicit : (setNames sni.sniNames cert e).lookup name =
          (explicit x name sni).or (e.lookup name) := by
        rw [lookup_setNames, explicit, hcert]
        by_cases hname : name ∈ sni.sniNames <;> simp [Except.toOption, hname]
      rw [him, hex, himplicit, hexplicit]
      simp [List.findSome?_append, Option.or_assoc]

/-- A name is served by the first certificate with that name explicitly, or else by the first
    one that is for it. -/
theorem lookup_buildNamedCertificates {providers : List String}
    {sniCerts : List SniCertKeyContent} {m : Named χ}
    (h : buildNamedCertificates d x providers sniCerts = .ok m) (name : String) :
    m.lookup name =
      (sniCerts.findSome? (explicit x name)).or (sniCerts.findSome? (implicit x name)) := by
  rw [buildNamedCertificates] at h
  cases hloop : namedLoop d x providers sniCerts.zipIdx.reverse ∅ ∅ with
  | error err =>
    rw [hloop] at h
    cases h
  | ok maps =>
    obtain ⟨m', e'⟩ := maps
    rw [hloop] at h
    cases h
    obtain ⟨him, hex⟩ := lookup_namedLoop d hloop name
    rw [List.map_reverse, List.reverse_reverse, List.zipIdx_map_fst, AList.lookup_empty,
      Option.or_none] at him hex
    rw [lookup_foldl_insert e'.nodupKeys, him]
    exact congrArg (Option.or · _) hex

end Named

namespace Controller

variable (c : Controller χ)

/-- The client CAs of `syncCerts`. -/
def setClientCA (content : DynamicCertificateContent) (config : TLSConfig χ) :
    Except Error (TLSConfig χ) :=
  if content.clientCA.caBundle.length > 0 then
    match x.parseCertsPEM content.clientCA.caBundle with
    | .error err =>
      .error ("unable to load client CA file " ++ x.quoteBytes content.clientCA.caBundle ++ ": "
        ++ err)
    | .ok newClientCAs => .ok { config with clientCAs := some newClientCAs }
  else .ok config

/-- The serving certificate of `syncCerts`. -/
def setServingCert (content : DynamicCertificateContent) (config : TLSConfig χ) :
    Except Error (TLSConfig χ) :=
  if content.servingCert.cert.length > 0 ∧ content.servingCert.key.length > 0 then
    match x.x509KeyPair content.servingCert.cert content.servingCert.key with
    | .error err => .error ("invalid serving cert keypair: " ++ err)
    | .ok cert =>
      match x.parseCertificate cert with
      | .error err => .error ("invalid serving cert: " ++ err)
      | .ok _ => .ok { config with certificates := [cert] }
  else .ok config

/-- The SNI certificates of `syncCerts`. -/
def setSniCerts (o : Order χ) (content : DynamicCertificateContent) (config : TLSConfig χ) :
    Except Error (TLSConfig χ) :=
  if content.sniCerts.length > 0 then
    match buildNamedCertificates d x c.sniCerts content.sniCerts with
    | .error err => .error ("unable to build named certificate map: " ++ err)
    | .ok nameToCertificate =>
      .ok { config with
        nameToCertificate
        certificates := config.certificates ++ o.range nameToCertificate }
  else .ok config

/-- The config that `syncCerts` makes of a content. -/
def build (o : Order χ) (content : DynamicCertificateContent) : Except Error (TLSConfig χ) := do
  let config ← setClientCA x content c.baseTLSConfig
  let config ← setServingCert x content config
  c.setSniCerts d x o content config

/-! ## The controller -/

/-- What the providers return in a call. -/
structure Provided where
  caBundle : Bytes := []
  servingCert : CertKeyContent := {}
  sniCerts : ℕ → SniCertKeyContent := fun _ => {}

/-- The loop of `newTLSContent` over the SNI certificates. -/
def sniLoop (p : Provided) : ℕ → List String → Except Error (List SniCertKeyContent)
  | _, [] => .ok []
  | i, name :: l =>
    if (p.sniCerts i).cert.length = 0 ∨ (p.sniCerts i).key.length = 0 then
      .error ("not loading an empty SNI certificate from " ++ toString i ++ "/" ++ d.quote name)
    else (sniLoop p (i + 1) l).map (p.sniCerts i :: ·)

/-- `newTLSContent`. -/
def newTLSContent (p : Provided) : Except Error DynamicCertificateContent := do
  let clientCA := if c.clientCA.isSome then { caBundle := p.caBundle } else {}
  let servingCert ← match c.servingCert with
    | none => .ok {}
    | some name =>
      if p.servingCert.cert.length = 0 ∨ p.servingCert.key.length = 0 then
        .error ("not loading an empty serving certificate from " ++ d.quote name)
      else .ok p.servingCert
  let sniCerts ← sniLoop d p 0 c.sniCerts
  .ok { clientCA, servingCert, sniCerts }

/-- The state of the controller. -/
structure State (χ : Type) where
  currentlyServedContent : Option DynamicCertificateContent := none
  currentServingTLSConfig : Option (TLSConfig χ) := none
  /-- How often a config was stored. -/
  stores : ℕ := 0

/-- `syncCerts`: its error, and the state. -/
def syncCerts (p : Provided) (o : Order χ) (σ : State χ) : Option Error × State χ :=
  match c.newTLSContent d p with
  | .error err => (some err, σ)
  | .ok newContent =>
    if newContent.equal σ.currentlyServedContent then (none, σ)
    else
      match c.build d x o newContent with
      | .error err => (some err, σ)
      | .ok newTLSConfigCopy =>
        (none, { currentlyServedContent := some newContent
                 currentServingTLSConfig := some newTLSConfigCopy
                 stores := σ.stores + 1 })

/-- Some calls of `syncCerts`, in a controller that was just made. -/
def run (calls : List (Provided × Order χ)) : State χ :=
  calls.foldl (fun σ call => (c.syncCerts d x call.1 call.2 σ).2) {}

/-- `GetConfigForClient`, with the server name of the client and the host of the address it
    is connected to, if that has one. -/
def getConfigForClient (serverName : String) (host : Option String) (σ : State χ) :
    Except Error (TLSConfig χ) :=
  match σ.currentServingTLSConfig with
  | none => .error "dynamiccertificates: configuration not ready"
  | some tlsConfig =>
    if serverName.length > 0 then .ok tlsConfig
    else
      match host with
      | none => .ok tlsConfig
      | some host =>
        match tlsConfig.nameToCertificate.lookup host with
        | none => .ok tlsConfig
        | some ipCert => .ok { tlsConfig with certificates := [ipCert], nameToCertificate := ∅ }

end Controller

/-! ## Staying in step -/

namespace Controller

variable {d x} {c : Controller χ} {p : Provided} {o : Order χ} {σ : State χ}

/-- What a call does: nothing, if the content is not one or cannot be served, or if it is
    being served, or else it serves the content. -/
theorem syncCerts_cases (d : Deps) (x : X509 χ) (c : Controller χ) (p : Provided) (o : Order χ)
    (σ : State χ) :
    (∃ err, c.newTLSContent d p = .error err ∧ c.syncCerts d x p o σ = (some err, σ)) ∨
      ∃ new, c.newTLSContent d p = .ok new ∧
        (σ.currentlyServedContent = some new ∧ c.syncCerts d x p o σ = (none, σ) ∨
          σ.currentlyServedContent ≠ some new ∧
            ((∃ err, c.build d x o new = .error err ∧ c.syncCerts d x p o σ = (some err, σ)) ∨
              ∃ config, c.build d x o new = .ok config ∧ c.syncCerts d x p o σ =
                (none, { currentlyServedContent := some new
                         currentServingTLSConfig := some config
                         stores := σ.stores + 1 }))) := by
  rw [syncCerts]
  cases c.newTLSContent d p with
  | error err => exact .inl ⟨err, rfl, rfl⟩
  | ok new =>
    refine .inr ⟨new, rfl, ?_⟩
    by_cases heq : σ.currentlyServedContent = some new
    · exact .inl ⟨heq, if_pos ((new.equal_iff _).2 heq)⟩
    · refine .inr ⟨heq, ?_⟩
      simp only [if_neg (mt (new.equal_iff _).1 heq)]
      cases c.build d x o new with
      | error err => exact .inl ⟨err, rfl, rfl⟩
      | ok config => exact .inr ⟨config, rfl, rfl⟩

/-- The config that is served is made of the current content. -/
structure InStep (d : Deps) (x : X509 χ) (c : Controller χ) (σ : State χ) : Prop where
  none_iff : σ.currentServingTLSConfig = none ↔ σ.currentlyServedContent = none
  built : ∀ content ∈ σ.currentlyServedContent, ∀ config ∈ σ.currentServingTLSConfig,
    ∃ o, c.build d x o content = .ok config

theorem InStep.syncCerts (h : InStep d x c σ) (p : Provided) (o : Order χ) :
    InStep d x c (c.syncCerts d x p o σ).2 := by
  rcases syncCerts_cases d x c p o σ with ⟨err, _, heq⟩ |
    ⟨new, _, ⟨_, heq⟩ | ⟨_, ⟨err, _, heq⟩ | ⟨config, hbuild, heq⟩⟩⟩
  · rwa [heq]
  · rwa [heq]
  · rwa [heq]
  · rw [heq]
    refine ⟨by simp, ?_⟩
    rintro _ ⟨⟩ _ ⟨⟩
    exact ⟨o, hbuild⟩

theorem run_concat (d : Deps) (x : X509 χ) (c : Controller χ) (calls : List (Provided × Order χ))
    (call : Provided × Order χ) :
    c.run d x (calls ++ [call]) = (c.syncCerts d x call.1 call.2 (c.run d x calls)).2 := by
  rw [run, run, List.foldl_append]
  rfl

/-- The config that is served is always made of the current content. -/
theorem inStep_run (d : Deps) (x : X509 χ) (c : Controller χ) (calls : List (Provided × Order χ)) :
    InStep d x c (c.run d x calls) := by
  induction calls using List.reverseRecOn with
  | nil => exact ⟨by simp [run], fun _ h => absurd h (by simp [run])⟩
  | append_singleton calls call ih =>
    rw [run_concat]
    exact ih.syncCerts call.1 call.2

/-- Whether a content can be served does not depend on the order of the certificates. -/
theorem build_order {content : DynamicCertificateContent} {config : TLSConfig χ}
    (h : c.build d x o content = .ok config) (o' : Order χ) :
    ∃ config', c.build d x o' content = .ok config' := by
  obtain ⟨config₁, h₁, h⟩ := bind_eq_ok h
  obtain ⟨config₂, h₂, h⟩ := bind_eq_ok h
  rw [build, h₁]
  change ∃ config', (setServingCert x content config₁ >>= _) = _
  rw [h₂]
  change ∃ config', c.setSniCerts d x o' content config₂ = _
  rw [setSniCerts] at h ⊢
  by_cases hsni : content.sniCerts.length > 0
  · simp only [if_pos hsni] at h ⊢
    cases hnamed : buildNamedCertificates d x c.sniCerts content.sniCerts with
    | error err =>
      rw [hnamed] at h
      cases h
    | ok m => exact ⟨_, rfl⟩
  · exact ⟨config₂, if_neg hsni⟩

/-- The content that the providers return, if it can be served. -/
def accepts (d : Deps) (x : X509 χ) (c : Controller χ) (call : Provided × Order χ) :
    Option DynamicCertificateContent :=
  (c.newTLSContent d call.1).toOption.filter fun new =>
    (c.build d x call.2 new).toOption.isSome

/-- A call serves what it accepts, or what was served. -/
theorem content_syncCerts (h : InStep d x c σ) (call : Provided × Order χ) :
    (c.syncCerts d x call.1 call.2 σ).2.currentlyServedContent =
      (accepts d x c call).or σ.currentlyServedContent := by
  rcases syncCerts_cases d x c call.1 call.2 σ with ⟨err, hnew, heq⟩ |
    ⟨new, hnew, ⟨hsame, heq⟩ | ⟨_, ⟨err, hbuild, heq⟩ | ⟨config, hbuild, heq⟩⟩⟩
  · simp [heq, accepts, hnew, Except.toOption]
  · -- What is being served could be served again.
    obtain ⟨config, hconfig⟩ : ∃ config, σ.currentServingTLSConfig = some config := by
      rw [← Option.ne_none_iff_exists', Ne, h.none_iff, hsame]
      exact Option.some_ne_none _
    obtain ⟨o, hbuild⟩ := h.built new hsame config hconfig
    obtain ⟨config', hbuild'⟩ := build_order hbuild call.2
    simp [heq, accepts, hnew, hbuild', hsame, Except.toOption, Option.filter]
  · simp [heq, accepts, hnew, hbuild, Except.toOption, Option.filter]
  · simp [heq, accepts, hnew, hbuild, Except.toOption, Option.filter]

/-- The current content is the last one that could be served. -/
theorem content_run (d : Deps) (x : X509 χ) (c : Controller χ)
    (calls : List (Provided × Order χ)) :
    (c.run d x calls).currentlyServedContent = (calls.filterMap (accepts d x c)).getLast? := by
  induction calls using List.reverseRecOn with
  | nil => rfl
  | append_singleton calls call ih =>
    rw [run_concat, content_syncCerts (inStep_run d x c calls), ih, List.filterMap_append,
      List.getLast?_append]
    cases hcall : accepts d x c call <;> simp [hcall]

/-- What a call leaves, with its error. -/
structure Synced (d : Deps) (x : X509 χ) (c : Controller χ) (p : Provided) (o : Order χ)
    (σ : State χ) (r : Option Error × State χ) : Prop where
  /-- A call that fails changes nothing. -/
  failed : r.1 ≠ none → r.2 = σ
  /-- It succeeds if the content is being served or can be. -/
  err_iff : r.1 = none ↔ ∃ new, c.newTLSContent d p = .ok new ∧
    (σ.currentlyServedContent = some new ∨ ∃ config, c.build d x o new = .ok config)
  /-- Then a config is stored exactly if the content has changed, -/
  stores_iff : r.1 = none → (r.2.stores ≠ σ.stores ↔
    ∃ new, c.newTLSContent d p = .ok new ∧ σ.currentlyServedContent ≠ some new)
  /-- nothing changes if none is, -/
  skipped : r.2.stores = σ.stores → r.2 = σ
  /-- and one that is is made of the new content. -/
  stored : r.2.stores ≠ σ.stores → ∃ new config, c.newTLSContent d p = .ok new ∧
    c.build d x o new = .ok config ∧ r.2 =
      { currentlyServedContent := some new
        currentServingTLSConfig := some config
        stores := σ.stores + 1 }

/-- What a call does, in all cases. -/
theorem synced_syncCerts (d : Deps) (x : X509 χ) (c : Controller χ) (p : Provided) (o : Order χ)
    (σ : State χ) : Synced d x c p o σ (c.syncCerts d x p o σ) := by
  rcases syncCerts_cases d x c p o σ with ⟨err, hnew, heq⟩ |
    ⟨new, hnew, ⟨hsame, heq⟩ | ⟨hdiff, ⟨err, hbuild, heq⟩ | ⟨config, hbuild, heq⟩⟩⟩
  · rw [heq]
    exact ⟨fun _ => rfl, by simp [hnew], fun h => absurd h (by simp), fun _ => rfl,
      fun h => absurd rfl h⟩
  · rw [heq]
    exact ⟨fun _ => rfl, by simp [hnew, hsame], fun _ => by simp [hnew, hsame], fun _ => rfl,
      fun h => absurd rfl h⟩
  · rw [heq]
    exact ⟨fun _ => rfl, by simp [hnew, hdiff, hbuild], fun h => absurd h (by simp), fun _ => rfl,
      fun h => absurd rfl h⟩
  · rw [heq]
    exact ⟨fun h => absurd rfl h, by simp [hnew, hbuild], fun _ => by simp [hnew, hdiff],
      fun h => absurd h (by simp), fun _ => ⟨new, config, hnew, hbuild, rfl⟩⟩

/-- Whatever the providers returned before, the config that is served is made of the current
    content, a call makes one exactly if the content has changed, and a call that fails
    changes nothing. -/
theorem syncCerts_inStep (d : Deps) (x : X509 χ) (c : Controller χ)
    (calls : List (Provided × Order χ)) (p : Provided) (o : Order χ) :
    InStep d x c (c.run d x calls) ∧
      Synced d x c p o (c.run d x calls) (c.syncCerts d x p o (c.run d x calls)) :=
  ⟨inStep_run d x c calls, synced_syncCerts d x c p o _⟩

/-- A client gets a config if there is one. -/
theorem getConfigForClient_eq_ok (serverName : String) (host : Option String) (σ : State χ) :
    (∃ config, getConfigForClient serverName host σ = .ok config) ↔
      σ.currentServingTLSConfig ≠ none := by
  rw [getConfigForClient]
  cases σ.currentServingTLSConfig with
  | none => simp
  | some tlsConfig =>
    refine ⟨fun _ => Option.some_ne_none _, fun _ => ?_⟩
    by_cases hname : serverName.length > 0
    · exact ⟨_, if_pos hname⟩
    · simp only [if_neg hname]
      cases host with
      | none => exact ⟨_, rfl⟩
      | some host =>
        dsimp only
        cases tlsConfig.nameToCertificate.lookup host with
        | none => exact ⟨_, rfl⟩
        | some ipCert => exact ⟨_, rfl⟩

/-- So it does as soon as there was a content that could be served, and from then on. -/
theorem getConfigForClient_run (d : Deps) (x : X509 χ) (c : Controller χ)
    (calls : List (Provided × Order χ)) (serverName : String) (host : Option String) :
    (∃ config, getConfigForClient serverName host (c.run d x calls) = .ok config) ↔
      ∃ call ∈ calls, accepts d x c call ≠ none := by
  have hcontent : (c.run d x calls).currentlyServedContent = none ↔
      ∀ call ∈ calls, accepts d x c call = none := by
    rw [content_run, List.getLast?_eq_none_iff, List.filterMap_eq_nil_iff]
  rw [getConfigForClient_eq_ok, Ne, (inStep_run d x c calls).none_iff, hcontent]
  push Not
  rfl

end Controller

end Apiserver.Certificates
