import Apiserver.Certificates.Serving

/-!
# The choice of a certificate

A client names the host it wants, and is shown the certificate for that name. One that names
no host that is served gets the default, the first certificate of the config
(`pkg/dynamiccertificates`). The SNI certificates are given as a list, and the earlier ones
are meant to take precedence: for a name, and as the default if there is no serving
certificate. For a name they do. The default is taken from the named certificates as they are
visited, though, in an order that may be any.

* `lookup_buildNamedCertificates` says what a name is served by, here `serves`;
* `build_noServing`: the certificates of a config, without a serving certificate;
* `firstWins_iff`: the default is the first SNI certificate exactly if the base config begins
  with it, or has none, and no other SNI certificate serves any name;
* `not_firstWins_two`: with two certificates for a name each, the second may be the default.
-/

namespace Apiserver.Certificates

open Go

variable {χ : Type}

/-- The certificate a name is to be served by: the first with the name explicitly, or else the
    first without explicit names that is for it. -/
def serves (x : X509 χ) (sniCerts : List SniCertKeyContent) (name : String) : Option χ :=
  (sniCerts.findSome? (explicit x name)).or (sniCerts.findSome? (implicit x name))

/-! ## Orders -/

theorem Named.mem_range_iff {o : Order χ} {m : Named χ} {cert : χ} :
    cert ∈ o.range m ↔ ∃ name, m.lookup name = some cert := by
  rw [(o.perm m).mem_iff, List.mem_map]
  constructor
  · rintro ⟨⟨name, cert⟩, hmem, rfl⟩
    exact ⟨name, AList.mem_lookup_iff.2 hmem⟩
  · rintro ⟨name, hname⟩
    exact ⟨⟨name, cert⟩, AList.mem_lookup_iff.1 hname, rfl⟩

/-- The visit that begins with a name, if it is there. -/
def visitFirst (name : String) (m : Named χ) : List χ :=
  match m.lookup name with
  | some cert => cert :: (m.entries.kerase name).map Sigma.snd
  | none => m.entries.map Sigma.snd

/-- It is an order in which the map may be visited. -/
theorem visitFirst_perm (name : String) (m : Named χ) :
    (visitFirst name m).Perm (m.entries.map Sigma.snd) := by
  rw [visitFirst]
  cases hname : m.lookup name with
  | none => exact .refl _
  | some cert =>
    have hmem : name ∈ m.entries.keys := List.mem_keys_of_mem (AList.mem_lookup_iff.1 hname)
    obtain ⟨cert', l₁, l₂, hl₁, hentries, herase⟩ := List.exists_of_kerase hmem
    obtain rfl : cert' = cert := by
      have hmem' : Sigma.mk name cert' ∈ m.entries := by rw [hentries]; simp
      rw [AList.mem_lookup_iff.2 hmem'] at hname
      exact Option.some.inj hname
    rw [herase, hentries]
    rw [List.map_append, List.map_append, List.map_cons]
    exact List.perm_middle.symm

/-- An order of visits that begins with a name. -/
def Order.first (name : String) : Order χ where
  range := visitFirst name
  perm := visitFirst_perm name

theorem Order.head?_first {name : String} {m : Named χ} {cert : χ}
    (h : m.lookup name = some cert) : ((Order.first name).range m).head? = some cert := by
  change (visitFirst name m).head? = _
  rw [visitFirst, h]
  rfl

namespace Controller

/-! ## The configured certificates -/

/-- The SNI certificates that the providers return, in the order they are configured. -/
def configured (c : Controller χ) (p : Provided) : List SniCertKeyContent :=
  (List.range c.sniCerts.length).map p.sniCerts

/-- The first SNI certificate of the configured list. -/
def firstSni (x : X509 χ) (c : Controller χ) (p : Provided) : Option χ :=
  (c.configured p).head?.bind fun sni => (x.x509KeyPair sni.cert sni.key).toOption

variable {d : Deps} {x : X509 χ} {c : Controller χ} {p : Provided} {o : Order χ} {σ : State χ}

/-- The contents are listed in their order. -/
theorem sniLoop_eq_ok {i : ℕ} {names : List String} {sniCerts : List SniCertKeyContent}
    (h : sniLoop d p i names = .ok sniCerts) :
    sniCerts = (List.range names.length).map fun j => p.sniCerts (i + j) := by
  induction names generalizing i sniCerts with
  | nil =>
    cases h
    rfl
  | cons name names ih =>
    rw [sniLoop] at h
    split_ifs at h
    obtain ⟨rest, hrest, rfl⟩ := map_eq_ok h
    rw [ih hrest, List.length_cons, List.range_succ_eq_map, List.map_cons, List.map_map]
    simp only [Function.comp_def, Nat.add_zero, Nat.succ_eq_add_one, Nat.add_assoc, Nat.add_comm 1]

/-- The content of a controller without a serving certificate. -/
theorem newTLSContent_noServing (hserving : c.servingCert = none)
    {new : DynamicCertificateContent} (h : c.newTLSContent d p = .ok new) :
    new.servingCert = {} ∧ new.sniCerts = c.configured p := by
  rw [newTLSContent, hserving] at h
  obtain ⟨servingCert, hcert, h⟩ := bind_eq_ok h
  obtain ⟨sniCerts, hsni, h⟩ := bind_eq_ok h
  cases hcert
  cases h
  refine ⟨rfl, ?_⟩
  rw [sniLoop_eq_ok hsni, configured]
  simp only [Nat.zero_add]

/-- The client CA leaves the certificates as they are. -/
theorem setClientCA_certificates {content : DynamicCertificateContent}
    {config config' : TLSConfig χ} (h : setClientCA x content config = .ok config') :
    config'.certificates = config.certificates := by
  rw [setClientCA] at h
  split_ifs at h
  · cases hparse : x.parseCertsPEM content.clientCA.caBundle with
    | error err =>
      rw [hparse] at h
      cases h
    | ok cas =>
      rw [hparse] at h
      cases h
      rfl
  · cases h
    rfl

/-- Without a serving certificate, the named certificates come after those of the base config,
    in the order they are visited. -/
theorem build_noServing {content : DynamicCertificateContent} {config : TLSConfig χ}
    (hserving : content.servingCert = {}) (hsni : content.sniCerts ≠ [])
    (h : c.build d x o content = .ok config) :
    ∃ m, buildNamedCertificates d x c.sniCerts content.sniCerts = .ok m ∧
      config.certificates = c.baseTLSConfig.certificates ++ o.range m := by
  obtain ⟨config₁, h₁, h⟩ := bind_eq_ok h
  obtain ⟨config₂, h₂, h⟩ := bind_eq_ok h
  have hsame : config₂ = config₁ := by
    rw [setServingCert, hserving, if_neg (by simp)] at h₂
    exact (Except.ok.inj h₂).symm
  rw [setSniCerts, if_pos (List.length_pos_of_ne_nil hsni)] at h
  cases hnamed : buildNamedCertificates d x c.sniCerts content.sniCerts with
  | error err =>
    rw [hnamed] at h
    cases h
  | ok m =>
    rw [hnamed] at h
    cases h
    refine ⟨m, rfl, ?_⟩
    change config₂.certificates ++ _ = _
    rw [hsame, setClientCA_certificates h₁]

/-! ## The default certificate -/

/-- A call of `syncCerts` may install a config, in some order of its visits. -/
def Installs (d : Deps) (x : X509 χ) (c : Controller χ) (p : Provided) (σ : State χ)
    (config : TLSConfig χ) : Prop :=
  ∃ o, (c.syncCerts d x p o σ).2.stores ≠ σ.stores ∧
    (c.syncCerts d x p o σ).2.currentServingTLSConfig = some config

/-- When a config may be installed. -/
theorem installs_iff {config : TLSConfig χ} :
    Installs d x c p σ config ↔ ∃ new, c.newTLSContent d p = .ok new ∧
      σ.currentlyServedContent ≠ some new ∧ ∃ o, c.build d x o new = .ok config := by
  constructor
  · rintro ⟨o, hstores, hconfig⟩
    rcases syncCerts_cases d x c p o σ with ⟨err, _, heq⟩ |
      ⟨new, hnew, ⟨_, heq⟩ | ⟨hdiff, ⟨err, _, heq⟩ | ⟨config', hbuild, heq⟩⟩⟩
    · exact absurd (congrArg (·.2.stores) heq) hstores
    · exact absurd (congrArg (·.2.stores) heq) hstores
    · exact absurd (congrArg (·.2.stores) heq) hstores
    · rw [heq] at hconfig
      obtain rfl := Option.some.inj hconfig
      exact ⟨new, hnew, hdiff, o, hbuild⟩
  · rintro ⟨new, hnew, hdiff, o, hbuild⟩
    refine ⟨o, ?_⟩
    rcases syncCerts_cases d x c p o σ with ⟨err, hnew', _⟩ | ⟨new', hnew', hcases⟩
    · rw [hnew] at hnew'
      cases hnew'
    · rw [hnew] at hnew'
      obtain rfl := Except.ok.inj hnew'
      rcases hcases with ⟨hsame, _⟩ | ⟨_, ⟨err, hbuild', _⟩ | ⟨config', hbuild', heq⟩⟩
      · exact absurd hsame hdiff
      · rw [hbuild] at hbuild'
        cases hbuild'
      · rw [hbuild] at hbuild'
        obtain rfl := Except.ok.inj hbuild'
        rw [heq]
        exact ⟨Nat.succ_ne_self _, rfl⟩

/-- The earlier certificates take precedence: for every name, and for the default that a call
    installs if there is no serving certificate. -/
structure FirstWins (d : Deps) (x : X509 χ) (c : Controller χ) (p : Provided) (σ : State χ) :
    Prop where
  named : ∀ sniCerts m, buildNamedCertificates d x c.sniCerts sniCerts = .ok m →
    ∀ name, m.lookup name = serves x sniCerts name
  byDefault : c.servingCert = none → ∀ first, c.firstSni x p = some first →
    ∀ config, Installs d x c p σ config → config.certificates.head? = some first

/-- No visit of the certificates can begin with another one: the base config has the first one
    at its beginning, or it is empty and all names that are served are by the first one. -/
def OnlyFirst (x : X509 χ) (c : Controller χ) (p : Provided) (first : χ) : Prop :=
  c.baseTLSConfig.certificates.head? = some first ∨
    c.baseTLSConfig.certificates = [] ∧ (∃ name, serves x (c.configured p) name ≠ none) ∧
      ∀ name cert, serves x (c.configured p) name = some cert → cert = first

/-- The configs that a call may install begin with the certificates of the base config, and
    then have the named certificates in any order. -/
theorem certificates_installs (hserving : c.servingCert = none) (hsni : c.configured p ≠ [])
    (h : ∃ config, Installs d x c p σ config) :
    ∃ m : Named χ, (∀ name, m.lookup name = serves x (c.configured p) name) ∧
      (∀ o : Order χ, ∃ config, Installs d x c p σ config ∧
        config.certificates = c.baseTLSConfig.certificates ++ o.range m) ∧
      ∀ config, Installs d x c p σ config → ∃ o : Order χ,
        config.certificates = c.baseTLSConfig.certificates ++ o.range m := by
  obtain ⟨config, hconfig⟩ := h
  obtain ⟨new, hnew, hdiff, o, hbuild⟩ := installs_iff.1 hconfig
  obtain ⟨hempty, hconfigured⟩ := newTLSContent_noServing hserving hnew
  rw [← hconfigured] at hsni ⊢
  obtain ⟨m, hm, -⟩ := build_noServing hempty hsni hbuild
  -- The named certificates do not depend on the order.
  have hcertificates : ∀ {o config}, c.build d x o new = .ok config →
      config.certificates = c.baseTLSConfig.certificates ++ o.range m := by
    intro o config hbuild
    obtain ⟨m', hm', hcerts⟩ := build_noServing hempty hsni hbuild
    rw [hm] at hm'
    rwa [← Except.ok.inj hm'] at hcerts
  refine ⟨m, lookup_buildNamedCertificates d hm, fun o' => ?_, fun config' hconfig' => ?_⟩
  · obtain ⟨config', hbuild'⟩ := build_order hbuild o'
    exact ⟨config', installs_iff.2 ⟨new, hnew, hdiff, o', hbuild'⟩, hcertificates hbuild'⟩
  · obtain ⟨new', hnew', -, o', hbuild'⟩ := installs_iff.1 hconfig'
    rw [hnew] at hnew'
    obtain rfl := Except.ok.inj hnew'
    exact ⟨o', hcertificates hbuild'⟩

theorem configured_ne_nil {first : χ} (h : c.firstSni x p = some first) : c.configured p ≠ [] := by
  intro hnil
  rw [firstSni, hnil] at h
  cases h

/-- Every visit of the named certificates, after some others, begins with one certificate. -/
theorem head?_range_iff {base : List χ} {m : Named χ} {first : χ} :
    (∀ o : Order χ, (base ++ o.range m).head? = some first) ↔
      base.head? = some first ∨ base = [] ∧ (∃ name, m.lookup name ≠ none) ∧
        ∀ name cert, m.lookup name = some cert → cert = first := by
  cases base with
  | cons cert certs =>
    simp only [List.cons_append, List.head?_cons, reduceCtorEq, false_and, or_false]
    exact ⟨fun h => h (.first ""), fun h _ => h⟩
  | nil =>
    simp only [List.nil_append, List.head?_nil, reduceCtorEq, true_and, false_or]
    constructor
    · intro h
      refine ⟨?_, fun name cert hname => ?_⟩
      · obtain ⟨name, hname⟩ := Named.mem_range_iff.1 (List.mem_of_head? (h (.first "")))
        exact ⟨name, by rw [hname]; exact Option.some_ne_none _⟩
      · -- The visit may begin with this name.
        have hhead := h (.first name)
        rw [Order.head?_first hname] at hhead
        exact Option.some.inj hhead
    · rintro ⟨⟨name, hname⟩, honly⟩ o
      cases hrange : o.range m with
      | nil =>
        obtain ⟨cert, hcert⟩ := Option.ne_none_iff_exists'.1 hname
        have hmem : cert ∈ o.range m := Named.mem_range_iff.2 ⟨name, hcert⟩
        rw [hrange] at hmem
        cases hmem
      | cons cert certs =>
        obtain ⟨name', hname'⟩ : ∃ name', m.lookup name' = some cert :=
          Named.mem_range_iff.1 (by rw [hrange]; exact List.mem_cons_self)
        rw [honly name' cert hname']
        rfl

/-- The default is the first SNI certificate, however the certificates are visited, exactly if
    no visit can begin with another one. -/
theorem firstWins_iff (d : Deps) (x : X509 χ) (c : Controller χ) (p : Provided) (σ : State χ) :
    FirstWins d x c p σ ↔
      (c.servingCert = none → ∀ first, c.firstSni x p = some first →
        (∃ config, Installs d x c p σ config) → c.OnlyFirst x p first) := by
  constructor
  · intro h hserving first hfirst hinstalls
    obtain ⟨m, hlookup, hall, -⟩ :=
      certificates_installs hserving (configured_ne_nil hfirst) hinstalls
    simp only [OnlyFirst, ← hlookup]
    refine head?_range_iff.1 fun o => ?_
    obtain ⟨config, hconfig, hcerts⟩ := hall o
    rw [← hcerts]
    exact h.byDefault hserving first hfirst config hconfig
  · intro h
    refine ⟨fun sniCerts m hm => lookup_buildNamedCertificates d hm, ?_⟩
    intro hserving first hfirst config hconfig
    obtain ⟨m, hlookup, -, hall⟩ :=
      certificates_installs hserving (configured_ne_nil hfirst) ⟨config, hconfig⟩
    obtain ⟨o, hcerts⟩ := hall config hconfig
    have honly := h hserving first hfirst ⟨config, hconfig⟩
    simp only [OnlyFirst, ← hlookup] at honly
    rw [hcerts]
    exact head?_range_iff.2 honly o

/-- Key pairs that are their certificates, for `not_firstWins_two`. -/
def certBytes : X509 Bytes where
  parseCertsPEM _ := .ok []
  x509KeyPair cert _ := .ok cert
  parseCertificate cert := .ok { raw := cert }
  isIP _ := false
  validation := ⟨fun _ => [], fun _ => []⟩
  quoteBytes _ := ""

/-- Two SNI certificates and no serving certificate. -/
def twoSni : Controller Bytes where
  sniCerts := ["a", "b"]

/-- The first certificate is for one name, and the second for another. -/
def aAndB : Provided where
  sniCerts
    | 0 => { cert := [1], key := [1], sniNames := ["a.example"] }
    | _ => { cert := [2], key := [2], sniNames := ["b.example"] }

theorem not_firstWins_two : ¬FirstWins .plain certBytes twoSni aAndB {} := by
  intro h
  have hinstalls : ∃ config, Installs .plain certBytes twoSni aAndB {} config ∧
      config.certificates = [[2], [1]] :=
    ⟨_, ⟨.first "b.example", by decide, rfl⟩, by decide⟩
  obtain ⟨config, hconfig, hcerts⟩ := hinstalls
  have := h.byDefault rfl [1] rfl config hconfig
  rw [hcerts] at this
  exact absurd this (by decide)

end Controller

end Apiserver.Certificates
