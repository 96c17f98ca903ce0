import Apiserver.Certificates.Serving

/-!
# Certificates from files

The providers of certificates read files again and again (`pkg/dynamiccertificates`). A
provider of CA certificates has one file (`dynamic_cafile_content.go`), one of a certificate
and its key has two (`dynamic_serving_content.go`). What is read is stored if it is good and
not what is stored already, and then the listeners of the provider are told. Several providers
of CA certificates may act as one (`union_content.go`).

* `Keeps`: what a load does, given the content it has read, if that is good;
* `keeps_loadCABundle`, `keeps_loadCertKeyPair`: that is what the two loads do;
* `loads_keep_last`: whatever is in the files, a provider has the last good content that was
  read, and it tells its listeners exactly when that changes;
* `currentCABundleContent_congr`: a union depends on the files of its members only.
-/

namespace Apiserver.Certificates

open Go

variable {χ ρ : Type}

/-! ## Loading -/

section Loading

/-- The end of a load: its error, what is stored, and whether the listeners were told. -/
structure Loaded (β : Type) where
  err : Option Error := none
  content : Option β
  notified : Bool := false

/-- `caBundleAndVerifier`. Of the verify options only the roots depend on the bundle. -/
structure CaBundleAndVerifier (ρ : Type) where
  caBundle : Bytes
  roots : ρ
  deriving DecidableEq

variable (d : Deps) (newPoolFromBytes : Bytes → Except Error ρ) (x : X509 χ) (name : String)

/-- `newCABundleAndVerifier`. -/
def newCABundleAndVerifier (caBundle : Bytes) : Except Error (CaBundleAndVerifier ρ) :=
  if caBundle.length = 0 then .error ("missing content for CA bundle " ++ d.quote name)
  else
    match newPoolFromBytes caBundle with
    | .error err => .error ("error loading CA bundle for " ++ d.quote name ++ ": " ++ err)
    | .ok roots => .ok { caBundle, roots }

/-- `hasCAChanged`. -/
def hasCAChanged (current : Option (CaBundleAndVerifier ρ)) (caBundle : Bytes) : Bool :=
  match current with
  | none => true
  | some existing => if existing.caBundle ≠ caBundle then true else false

/-- `loadCABundle`, with what is in the file. -/
def loadCABundle (file : Except Error Bytes) (current : Option (CaBundleAndVerifier ρ)) :
    Loaded (CaBundleAndVerifier ρ) :=
  match file with
  | .error err => { err := some err, content := current }
  | .ok caBundle =>
    if caBundle.length = 0 then
      { err := some ("missing content for CA bundle " ++ d.quote name), content := current }
    else if !hasCAChanged current caBundle then { content := current }
    else
      match newCABundleAndVerifier d newPoolFromBytes name caBundle with
      | .error err => { err := some err, content := current }
      | .ok new => { content := some new, notified := true }

/-- `loadCertKeyPair`, with what is in the two files. -/
def loadCertKeyPair (certFile keyFile : Except Error Bytes) (current : Option CertKeyContent) :
    Loaded CertKeyContent :=
  match certFile with
  | .error err => { err := some err, content := current }
  | .ok cert =>
    match keyFile with
    | .error err => { err := some err, content := current }
    | .ok key =>
      if cert.length = 0 ∨ key.length = 0 then
        { err := some ("missing content for serving cert " ++ d.quote name), content := current }
      else
        match x.x509KeyPair cert key with
        | .error err => { err := some err, content := current }
        | .ok _ =>
          if current.any (·.equal { cert, key }) then { content := current }
          else { content := some { cert, key }, notified := true }

/-! ## The last good content -/

/-- What a load does, given the content it has read, if that is good. -/
structure Keeps {β : Type} (good current : Option β) (r : Loaded β) : Prop where
  err_iff : r.err = none ↔ good ≠ none
  content : r.content = good.or current
  notified_iff : r.notified = true ↔ r.content ≠ current

section Keeps

variable {β : Type} {current : Option β} {r : Loaded β}

theorem Keeps.failed {err : Error} : Keeps none current { err := some err, content := current } :=
  ⟨by simp, by simp, by simp⟩

theorem Keeps.same {content : β} (h : current = some content) :
    Keeps (some content) current { content := current } :=
  ⟨by simp, by simp [h], by simp⟩

theorem Keeps.stored {content : β} (h : current ≠ some content) :
    Keeps (some content) current { content := some content, notified := true } :=
  ⟨by simp, by simp, by simpa using Ne.symm h⟩

variable {α : Type} (load : α → Option β → Loaded β)

/-- What is stored after some loads, by a provider that was just made. -/
def contents (reads : List α) : Option β :=
  reads.foldl (fun current read => (load read current).content) none

theorem contents_concat (reads : List α) (read : α) :
    contents load (reads ++ [read]) = (load read (contents load reads)).content := by
  rw [contents, contents, List.foldl_append]
  rfl

variable {load} {good : α → Option β}

/-- What a load does with a content that was good when it was read. -/
def KeepsGood (good : α → Option β) (load : α → Option β → Loaded β) : Prop :=
  ∀ read current, (∀ content ∈ current, ∃ read, good read = some content) →
    Keeps (good read) current (load read current)

theorem KeepsGood.of_last (h : KeepsGood good load) {reads : List α}
    (hcurrent : current = (reads.filterMap good).getLast?) (read : α) :
    Keeps (good read) current (load read current) := by
  refine h read current fun content hcontent => ?_
  rw [hcurrent] at hcontent
  obtain ⟨read', _, hread'⟩ := List.mem_filterMap.1 (List.mem_of_getLast? hcontent)
  exact ⟨read', hread'⟩

/-- So a provider has the last good content that was read. -/
theorem KeepsGood.contents_eq (h : KeepsGood good load) (reads : List α) :
    contents load reads = (reads.filterMap good).getLast? := by
  induction reads using List.reverseRecOn with
  | nil => rfl
  | append_singleton reads read ih =>
    rw [contents_concat, (h.of_last ih read).content, ih, List.filterMap_append,
      List.getLast?_append]
    cases hgood : good read <;> simp [hgood]

theorem KeepsGood.keeps (h : KeepsGood good load) (reads : List α) (read : α) :
    Keeps (good read) (contents load reads) (load read (contents load reads)) :=
  h.of_last (h.contents_eq reads) read

end Keeps

/-- The content of a file of CA certificates, if it is good. -/
def goodBundle (file : Except Error Bytes) : Option (CaBundleAndVerifier ρ) :=
  match file with
  | .error _ => none
  | .ok caBundle => (newCABundleAndVerifier d newPoolFromBytes name caBundle).toOption

/-- The content of the files of a certificate and its key, if it is good. -/
def goodPair (files : Except Error Bytes × Except Error Bytes) : Option CertKeyContent :=
  match files with
  | (.ok cert, .ok key) =>
    if cert.length = 0 ∨ key.length = 0 then none
    else (x.x509KeyPair cert key).toOption.map fun _ => { cert, key }
  | _ => none

variable {d newPoolFromBytes x name}

theorem newCABundleAndVerifier_eq_ok {caBundle : Bytes} {new : CaBundleAndVerifier ρ}
    (h : newCABundleAndVerifier d newPoolFromBytes name caBundle = .ok new) :
    caBundle.length ≠ 0 ∧ new.caBundle = caBundle ∧ newPoolFromBytes caBundle = .ok new.roots := by
  unfold newCABundleAndVerifier at h
  split_ifs at h with hempty
  split at h
  · cases h
  · rename_i roots hroots
    cases h
    exact ⟨hempty, rfl, hroots⟩

/-- A bundle that is good makes the content it was loaded as. -/
theorem goodBundle_eq_some {file : Except Error Bytes} {content : CaBundleAndVerifier ρ}
    (h : goodBundle d newPoolFromBytes name file = some content) :
    newCABundleAndVerifier d newPoolFromBytes name content.caBundle = .ok content := by
  unfold goodBundle at h
  split at h
  · cases h
  · rename_i caBundle
    cases hnew : newCABundleAndVerifier d newPoolFromBytes name caBundle with
    | error err =>
      rw [hnew] at h
      cases h
    | ok new =>
      rw [hnew] at h
      cases h
      rw [(newCABundleAndVerifier_eq_ok hnew).2.1, hnew]

/-- Loading a bundle takes it if it is good. -/
theorem keeps_loadCABundle (file : Except Error Bytes)
    (current : Option (CaBundleAndVerifier ρ)) (hcurrent : ∀ content ∈ current,
      newCABundleAndVerifier d newPoolFromBytes name content.caBundle = .ok content) :
    Keeps (goodBundle d newPoolFromBytes name file) current
      (loadCABundle d newPoolFromBytes name file current) := by
  cases file with
  | error err => exact Keeps.failed
  | ok caBundle =>
    simp only [loadCABundle, goodBundle]
    by_cases hempty : caBundle.length = 0
    · simp only [if_pos hempty, newCABundleAndVerifier, Except.toOption]
      exact Keeps.failed
    · rw [if_neg hempty]
      cases hchanged : hasCAChanged current caBundle with
      | false =>
        -- What is stored was good, and so it is again.
        cases current with
        | none => cases hchanged
        | some existing =>
          have hsame : existing.caBundle = caBundle := by simpa [hasCAChanged] using hchanged
          rw [← hsame, hcurrent existing rfl]
          exact Keeps.same rfl
      | true =>
        simp only [Bool.not_true, Bool.false_eq_true, if_false]
        cases hnew : newCABundleAndVerifier d newPoolFromBytes name caBundle with
        | error err => exact Keeps.failed
        | ok new =>
          refine Keeps.stored ?_
          rintro rfl
          have hbundle := (newCABundleAndVerifier_eq_ok hnew).2.1
          simp [hasCAChanged, hbundle] at hchanged

theorem any_equal_iff {current : Option CertKeyContent} {content : CertKeyContent} :
    current.any (·.equal content) = true ↔ current = some content := by
  cases current with
  | none => simp
  | some existing => simp [existing.equal_iff]

/-- So does loading a pair. -/
theorem keeps_loadCertKeyPair (files : Except Error Bytes × Except Error Bytes)
    (current : Option CertKeyContent) :
    Keeps (goodPair x files) current (loadCertKeyPair d x name files.1 files.2 current) := by
  obtain ⟨certFile, keyFile⟩ := files
  cases certFile with
  | error err => exact Keeps.failed
  | ok cert =>
    cases keyFile with
    | error err => exact Keeps.failed
    | ok key =>
      simp only [loadCertKeyPair, goodPair]
      by_cases hempty : cert.length = 0 ∨ key.length = 0
      · rw [if_pos hempty, if_pos hempty]
        exact Keeps.failed
      · rw [if_neg hempty, if_neg hempty]
        cases hpair : x.x509KeyPair cert key with
        | error err => exact Keeps.failed
        | ok chain =>
          by_cases hsame : current = some { cert, key }
          · simp only [any_equal_iff.2 hsame, if_true]
            exact Keeps.same hsame
          · simp only [mt any_equal_iff.1 hsame, Bool.false_eq_true, if_false]
            exact Keeps.stored hsame

/-- Whatever is in the files when they are read, a provider has the last good content among
    what was read. A load fails exactly if what it reads is not good, which leaves the content
    as it is, and the listeners are told exactly when the content changes. -/
theorem loads_keep_last (d : Deps) (newPoolFromBytes : Bytes → Except Error ρ) (x : X509 χ)
    (name : String) :
    (∀ reads : List (Except Error Bytes),
      contents (loadCABundle d newPoolFromBytes name) reads =
          (reads.filterMap (goodBundle d newPoolFromBytes name)).getLast? ∧
        ∀ read, Keeps (goodBundle d newPoolFromBytes name read)
          (contents (loadCABundle d newPoolFromBytes name) reads)
          (loadCABundle d newPoolFromBytes name read
            (contents (loadCABundle d newPoolFromBytes name) reads))) ∧
      ∀ reads : List (Except Error Bytes × Except Error Bytes),
        contents (fun files => loadCertKeyPair d x name files.1 files.2) reads =
            (reads.filterMap (goodPair x)).getLast? ∧
          ∀ read, Keeps (goodPair x read)
            (contents (fun files => loadCertKeyPair d x name files.1 files.2) reads)
            (loadCertKeyPair d x name read.1 read.2
              (contents (fun files => loadCertKeyPair d x name files.1 files.2) reads)) := by
  have hbundle : KeepsGood (goodBundle d newPoolFromBytes name)
      (loadCABundle d newPoolFromBytes name) := by
    refine fun read current hcurrent => keeps_loadCABundle read current fun content hcontent => ?_
    obtain ⟨read', hread'⟩ := hcurrent content hcontent
    exact goodBundle_eq_some hread'
  have hpair : KeepsGood (goodPair x)
      (fun files => loadCertKeyPair d x name files.1 files.2) :=
    fun read current _ => keeps_loadCertKeyPair read current
  exact ⟨fun reads => ⟨hbundle.contents_eq reads, hbundle.keeps reads⟩,
    fun reads => ⟨hpair.contents_eq reads, hpair.keeps reads⟩⟩

end Loading

/-! ## Providers -/

/-- A provider with files, by its number among those of its kind. -/
inductive Cell
  /-- `DynamicFileCAContent`, -/
  | ca (i : ℕ)
  /-- or `DynamicCertKeyPairContent`, also that of a `DynamicFileSNIContent`. -/
  | certKey (i : ℕ)
  deriving DecidableEq

/-- What such a provider stores. -/
@[reducible] def Cell.Content (ρ : Type) : Cell → Type
  | ca _ => CaBundleAndVerifier ρ
  | certKey _ => CertKeyContent

/-- What all of them have stored. A provider is only made if its first load succeeds, so there
    is something. -/
abbrev Stored (ρ : Type) := (i : Cell) → i.Content ρ

/-- `CAContentProvider`: a file, `staticCAContent`, or `unionCAContent`. -/
inductive CAContentProvider
  | file (i : ℕ) (name : String)
  | static (name : String) (caBundle : Bytes)
  | union (members : List CAContentProvider)

/-- `CertKeyContentProvider`: two files, or `staticCertKeyContent`. -/
inductive CertKeyContentProvider
  | files (i : ℕ) (name : String)
  | static (name : String) (content : CertKeyContent)

/-- `bytes.Join`. -/
def joinBytes (sep : Bytes) : List Bytes → Bytes
  | [] => []
  | [b] => b
  | b :: bs => b ++ sep ++ joinBytes sep bs

namespace CAContentProvider

mutual

/-- `Name`. -/
def name : CAContentProvider → String
  | file _ name => name
  | static name _ => name
  | union members => join (names members) ","

/-- The names of the members of a union. -/
def names : List CAContentProvider → List String
  | [] => []
  | curr :: members => curr.name :: names members

end

mutual

/-- The files that are read. -/
def cells : CAContentProvider → List Cell
  | file i _ => [.ca i]
  | static _ _ => []
  | union members => cellsOf members

/-- The files that the members of a union read, one after the other. -/
def cellsOf : List CAContentProvider → List Cell
  | [] => []
  | curr :: members => curr.cells ++ cellsOf members

end

variable (trimSpace : Bytes → Bytes) (stored : Stored ρ)

mutual

/-- `CurrentCABundleContent`. -/
def currentCABundleContent : CAContentProvider → Bytes
  | file i _ => (stored (.ca i)).caBundle
  | static _ caBundle => caBundle
  | union members => joinBytes [10] (caBundles members)

/-- The bundles of the members of a union. -/
def caBundles : List CAContentProvider → List Bytes
  | [] => []
  | curr :: members =>
    if (curr.currentCABundleContent).length > 0 then
      trimSpace curr.currentCABundleContent :: caBundles members
    else caBundles members

end

variable {trimSpace stored} {stored' : Stored ρ}

mutual

/-- A provider depends on its files only. -/
theorem currentCABundleContent_congr : (p : CAContentProvider) →
    (∀ i ∈ p.cells, stored i = stored' i) →
    p.currentCABundleContent trimSpace stored = p.currentCABundleContent trimSpace stored'
  | file i _, h => congrArg CaBundleAndVerifier.caBundle (h (.ca i) List.mem_cons_self)
  | static _ _, _ => rfl
  | union members, h => congrArg _ (caBundles_congr members h)

theorem caBundles_congr : (members : List CAContentProvider) →
    (∀ i ∈ cellsOf members, stored i = stored' i) →
    caBundles trimSpace stored members = caBundles trimSpace stored' members
  | [], _ => rfl
  | curr :: members, h => by
    have hcurr := currentCABundleContent_congr curr fun i hi =>
      h i (List.mem_append_left _ hi)
    have hmembers := caBundles_congr members fun i hi => h i (List.mem_append_right _ hi)
    rw [caBundles, caBundles, hcurr, hmembers]

end

end CAContentProvider

namespace CertKeyContentProvider

/-- `Name`. -/
def name : CertKeyContentProvider → String
  | files _ name => name
  | static name _ => name

/-- The files that are read. -/
def cells : CertKeyContentProvider → List Cell
  | files i _ => [.certKey i]
  | static _ _ => []

/-- `CurrentCertKeyContent`. -/
def currentCertKeyContent (stored : Stored ρ) : CertKeyContentProvider → CertKeyContent
  | files i _ => stored (.certKey i)
  | static _ content => content

theorem currentCertKeyContent_congr {stored stored' : Stored ρ} (p : CertKeyContentProvider)
    (h : ∀ i ∈ p.cells, stored i = stored' i) :
    p.currentCertKeyContent stored = p.currentCertKeyContent stored' := by
  cases p with
  | files i name => exact h (.certKey i) List.mem_cons_self
  | static name content => rfl

end CertKeyContentProvider

/-- The providers of a server. -/
structure Providers where
  clientCA : Option CAContentProvider := none
  servingCert : Option CertKeyContentProvider := none
  /-- With the names for SNI. -/
  sniCerts : List (CertKeyContentProvider × List String) := []

namespace Providers

variable (p : Providers)

/-- The controller that has these providers. -/
def controller (baseTLSConfig : TLSConfig χ) : Controller χ where
  baseTLSConfig
  clientCA := p.clientCA.map (·.name)
  servingCert := p.servingCert.map (·.name)
  sniCerts := p.sniCerts.map (·.1.name)

/-- The files, in the order in which `newTLSContent` asks for what is stored. -/
def cells : List Cell :=
  p.clientCA.elim [] (·.cells) ++ p.servingCert.elim [] (·.cells) ++
    p.sniCerts.flatMap (·.1.cells)

/-- What the providers return. -/
def provided (trimSpace : Bytes → Bytes) (stored : Stored ρ) : Controller.Provided where
  caBundle := p.clientCA.elim [] (·.currentCABundleContent trimSpace stored)
  servingCert := p.servingCert.elim {} (·.currentCertKeyContent stored)
  sniCerts i := (p.sniCerts[i]?).elim {} fun sni =>
    { sni.1.currentCertKeyContent stored with sniNames := sni.2 }

/-- They depend on the files only. -/
theorem provided_congr {trimSpace : Bytes → Bytes} {stored stored' : Stored ρ}
    (h : ∀ i ∈ p.cells, stored i = stored' i) :
    p.provided trimSpace stored = p.provided trimSpace stored' := by
  have hca : p.clientCA.elim [] (·.currentCABundleContent trimSpace stored) =
      p.clientCA.elim [] (·.currentCABundleContent trimSpace stored') := by
    cases hclient : p.clientCA with
    | none => rfl
    | some ca =>
      refine ca.currentCABundleContent_congr fun i hi => h i ?_
      simp [cells, hclient, hi]
  have hserving : p.servingCert.elim {} (·.currentCertKeyContent stored) =
      p.servingCert.elim {} (·.currentCertKeyContent stored') := by
    cases hcert : p.servingCert with
    | none => rfl
    | some cert =>
      refine cert.currentCertKeyContent_congr fun i hi => h i ?_
      simp [cells, hcert, hi]
  have hsni : ∀ sni ∈ p.sniCerts, sni.1.currentCertKeyContent stored =
      sni.1.currentCertKeyContent stored' := by
    refine fun sni hmem => sni.1.currentCertKeyContent_congr fun i hi => h i ?_
    exact List.mem_append_right _ (List.mem_flatMap.2 ⟨sni, hmem, hi⟩)
  simp only [provided, hca, hserving, Controller.Provided.mk.injEq, true_and]
  funext i
  cases hi : p.sniCerts[i]? with
  | none => rfl
  | some sni => simp only [Option.elim, hsni sni (List.mem_of_getElem? hi)]

end Providers

end Apiserver.Certificates
