import Apiserver.Basic
import Apiserver.Go.Strings

/-!
# Flags for named certificates

A certificate and its key are given on the command line as two file names, with the host
names it is for if it is not for those it contains (`components/cli/flag`). The flag may be
given several times, which makes an array. Both have a text: `cert,key:name,name` for one,
and `[cert,key;cert,key:name]` for an array, which is also its JSON.

* `set_string`: setting a certificate to its text gives it back;
* `mem_certFile_of_set`: setting one to a text with a bracket leaves the bracket in the name of
  the file. An array is read as one certificate, so that
* `survives_iff`: the JSON of an array is read back only if the array is empty;
* `not_survives_one`: one certificate is read back as another.
-/

namespace Apiserver.Flag

open Go

/-! ## One certificate -/

/-- `NamedCertKey`. -/
structure NamedCertKey where
  names : List String := []
  certFile : String := ""
  keyFile : String := ""
  deriving DecidableEq

namespace NamedCertKey

/-- `String`. -/
def string (nkc : NamedCertKey) : String :=
  let s := nkc.certFile ++ "," ++ nkc.keyFile
  if nkc.names.length > 0 then s ++ ":" ++ join nkc.names "," else s

/-- The end of `Set`: the names of the two files. -/
def setFiles (nkc : NamedCertKey) (keycert : String) : Option Error × NamedCertKey :=
  match split keycert ',' with
  | [cert, key] => (none, { nkc with certFile := trimSpace cert, keyFile := trimSpace key })
  | _ => (some "expected comma separated certificate and key file paths", nkc)

/-- `Set`: its error, and what the receiver is left as. -/
def set (nkc : NamedCertKey) (value : String) : Option Error × NamedCertKey :=
  match splitN value ':' 2 with
  | [keycert, names] =>
    if trimSpace names = "" then (some "empty names list is not allowed", nkc)
    else
      setFiles { nkc with names := (split (trimSpace names) ',').map trimSpace }
        (trimSpace keycert)
  | cs => setFiles { nkc with names := [] } (trimSpace (cs.headD ""))

end NamedCertKey

/-! ## Arrays -/

/-- `NamedCertKeyArray`; its value is a pointer, which may be nil. -/
structure NamedCertKeyArray where
  value : Option (List NamedCertKey) := none
  changed : Bool := false
  deriving DecidableEq

/-- `encoding/json` for strings. -/
structure StringJSON where
  marshal : String → String
  unmarshal : String → Except Error String
  unmarshal_marshal : ∀ s, unmarshal (marshal s) = .ok s
  marshal_ne_null : ∀ s, marshal s ≠ "null"

namespace NamedCertKeyArray

/-- `NewNamedCertKeyArray`. -/
def newNamedCertKeyArray (p : List NamedCertKey) : NamedCertKeyArray := { value := some p }

/-- `Set`: its error and the array, or `none` for a panic, if the pointer is nil. -/
def set (a : NamedCertKeyArray) (val : String) : Option (Option Error × NamedCertKeyArray) :=
  match NamedCertKey.set {} val with
  | (some err, _) => some (some err, a)
  | (none, nkc) =>
    match a.value with
    | none => none
    | some value =>
      if !a.changed then some (none, { value := some [nkc], changed := true })
      else some (none, { a with value := some (value ++ [nkc]) })

/-- `String`. -/
def string (a : NamedCertKeyArray) : String :=
  match a.value with
  | none => ""
  | some value => "[" ++ join (value.map NamedCertKey.string) ";" ++ "]"

/-- `Certs`. -/
def certs (a : NamedCertKeyArray) : List NamedCertKey := a.value.getD []

/-- `IsZero`. -/
def isZero (a : NamedCertKeyArray) : Bool :=
  match a.value with
  | none => true
  | some value => value.length == 0

/-- `SetDefault`. -/
def setDefault (a : NamedCertKeyArray) (val : String) :
    Option (Option Error × NamedCertKeyArray) :=
  match a.set val with
  | none => none
  | some (some err, a) => some (some err, a)
  | some (none, a) => some (none, { a with changed := false })

/-- `UnmarshalJSON`. -/
def unmarshalJSON (j : StringJSON) (a : NamedCertKeyArray) (b : String) :
    Option (Option Error × NamedCertKeyArray) :=
  if b.length = 4 ∧ b = "null" then some (none, a)
  else
    match j.unmarshal b with
    | .error err => some (some err, a)
    | .ok str => a.setDefault str

/-- `MarshalJSON`. -/
def marshalJSON (j : StringJSON) (a : NamedCertKeyArray) : String :=
  if a.isZero then "null" else j.marshal a.string

end NamedCertKeyArray

/-! ## Reading a text back -/

/-- A name without surrounding white space and without the characters that separate names. -/
structure Plain (s : String) : Prop where
  ne_empty : s ≠ ""
  trimmed : trimSpace s = s
  noSeparator : ∀ c ∈ s.toList, c ∉ [',', ':', ';', '[', ']']

/-- The names of the files and of the hosts are plain. -/
structure NamedCertKey.Plain (nkc : NamedCertKey) : Prop where
  certFile : Flag.Plain nkc.certFile
  keyFile : Flag.Plain nkc.keyFile
  names : ∀ name ∈ nkc.names, Flag.Plain name

theorem Plain.notMem {s : String} (h : Plain s) {c : Char} (hc : c ∈ [',', ':', ';', '[', ']']) :
    c ∉ s.toList :=
  fun hmem => h.noSeparator c hmem hc

/-- The text of plain names, separated by commas, is trimmed and split at the commas. -/
theorem split_join_plain {l : List String} (hl : l ≠ []) (h : ∀ s ∈ l, Plain s) :
    split (trimSpace (join l ",")) ',' = l := by
  rw [trimSpace_join hl fun s hs => ⟨(h s hs).ne_empty, (h s hs).trimmed⟩]
  exact split_join hl fun s hs => (h s hs).notMem (by decide)

namespace NamedCertKey

/-- Two files are read back. -/
theorem setFiles_join {cert key : String} (hcert : Flag.Plain cert) (hkey : Flag.Plain key)
    (nkc : NamedCertKey) :
    setFiles nkc (trimSpace (cert ++ "," ++ key)) =
      (none, { nkc with certFile := cert, keyFile := key }) := by
  have hsplit : split (trimSpace (join [cert, key] ",")) ',' = [cert, key] :=
    split_join_plain (List.cons_ne_nil _ _) (by simp [hcert, hkey])
  have hjoin : join [cert, key] "," = cert ++ "," ++ key := rfl
  rw [← hjoin, setFiles, hsplit]
  simp only [hcert.trimmed, hkey.trimmed]

/-- Setting a certificate to the text of a plain one gives that one, whatever it was. -/
theorem set_string {nkc : NamedCertKey} (h : nkc.Plain) (old : NamedCertKey) :
    old.set nkc.string = (none, nkc) := by
  obtain ⟨names, cert, key⟩ := nkc
  obtain ⟨hcert, hkey, hnames⟩ := h
  dsimp only at hcert hkey hnames
  have hcolon : ':' ∉ (cert ++ "," ++ key).toList := by
    simp [hcert.notMem (c := ':') (by decide), hkey.notMem (c := ':') (by decide)]
  by_cases hnil : names = []
  · rw [string, hnil, if_neg (by simp), set, splitN_two_of_notMem hcolon]
    exact setFiles_join hcert hkey _
  · have hsplit : splitN (cert ++ "," ++ key ++ ":" ++ join names ",") ':' 2 =
        [cert ++ "," ++ key, join names ","] := splitN_two_append hcolon _
    have htrim : trimSpace (join names ",") ≠ "" := by
      intro hempty
      have hback := split_join_plain hnil hnames
      rw [hempty] at hback
      -- The empty text is split into one part, which is not a name.
      have hmem : "" ∈ names := by
        rw [← hback]
        exact List.mem_singleton.2 rfl
      exact (hnames "" hmem).ne_empty rfl
    rw [string, if_pos (List.length_pos_of_ne_nil hnil), set, hsplit]
    dsimp only
    rw [if_neg htrim, split_join_plain hnil hnames, setFiles_join hcert hkey]
    have hmap : names.map trimSpace = names := by
      rw [List.map_congr_left fun name hname => (hnames name hname).trimmed, List.map_id']
    rw [hmap]

/-- A bracket that the text begins with goes to the name of the certificate file. -/
theorem mem_certFile_of_set {value : String} {old nkc : NamedCertKey}
    (hvalue : value.toList.head? = some '[') (h : old.set value = (none, nkc)) :
    '[' ∈ nkc.certFile.toList := by
  have hfiles : ∀ {old : NamedCertKey} {keycert : String}, keycert.toList.head? = some '[' →
      old.setFiles (trimSpace keycert) = (none, nkc) → '[' ∈ nkc.certFile.toList := by
    intro old keycert hhead hset
    obtain ⟨cert, rest, hsplit, hcert⟩ :=
      head?_split ',' (head?_trimSpace hhead (by decide)) (by decide)
    rw [setFiles, hsplit] at hset
    split at hset
    · rename_i cert' key heq
      obtain ⟨rfl, -⟩ := List.cons.inj heq
      cases hset
      exact List.mem_of_head? (head?_trimSpace hcert (by decide))
    · cases hset
  obtain ⟨keycert, rest, hsplit, hhead⟩ := head?_splitN_two ':' hvalue (by decide)
  rw [set, hsplit] at h
  split at h
  · rename_i keycert' names heq
    obtain ⟨rfl, -⟩ := List.cons.inj heq
    split_ifs at h
    · cases h
    · exact hfiles hhead h
  · rw [List.headD_cons] at h
    exact hfiles hhead h

end NamedCertKey

/-! ## JSON -/

namespace NamedCertKeyArray

/-- An array survives JSON, and its certificates their text. -/
structure Survives (j : StringJSON) (l : List NamedCertKey) : Prop where
  json : ∃ a, (newNamedCertKeyArray []).unmarshalJSON j ((newNamedCertKeyArray l).marshalJSON j) =
    some (none, a) ∧ a.certs = l
  text : ∀ nkc ∈ l, ∀ old : NamedCertKey, old.set nkc.string = (none, nkc)

theorem unmarshalJSON_marshalJSON {j : StringJSON} {l : List NamedCertKey} (hl : l ≠ [])
    (fresh : NamedCertKeyArray) :
    fresh.unmarshalJSON j ((newNamedCertKeyArray l).marshalJSON j) =
      fresh.setDefault (newNamedCertKeyArray l).string := by
  have hzero : (newNamedCertKeyArray l).isZero = false := by
    simpa [isZero, newNamedCertKeyArray] using hl
  rw [marshalJSON, hzero, unmarshalJSON, if_neg Bool.false_ne_true,
    if_neg fun h => j.marshal_ne_null _ h.2, j.unmarshal_marshal]

/-- What a fresh array is set to by default is one certificate. -/
theorem setDefault_fresh {val : String} {a : NamedCertKeyArray}
    (h : (newNamedCertKeyArray []).setDefault val = some (none, a)) :
    ∃ nkc, NamedCertKey.set {} val = (none, nkc) ∧ a.certs = [nkc] := by
  rw [setDefault, set] at h
  cases hset : NamedCertKey.set {} val with
  | mk err nkc =>
    rw [hset] at h
    cases err with
    | some err => cases h
    | none =>
      cases h
      exact ⟨nkc, rfl, rfl⟩

/-- The text of a certificate is read back, and the JSON of an array exactly if it is empty. -/
theorem survives_iff (j : StringJSON) {l : List NamedCertKey} (hl : ∀ nkc ∈ l, nkc.Plain) :
    (Survives j l ↔ l = []) ∧
      ∀ nkc ∈ l, ∀ old : NamedCertKey, old.set nkc.string = (none, nkc) := by
  have htext : ∀ nkc ∈ l, ∀ old : NamedCertKey, old.set nkc.string = (none, nkc) :=
    fun nkc hmem old => NamedCertKey.set_string (hl nkc hmem) old
  refine ⟨⟨?_, ?_⟩, htext⟩
  · rintro ⟨⟨a, hjson, hcerts⟩, -⟩
    by_contra hne
    rw [unmarshalJSON_marshalJSON hne] at hjson
    obtain ⟨nkc, hset, hone⟩ := setDefault_fresh hjson
    have hbracket : '[' ∈ nkc.certFile.toList :=
      NamedCertKey.mem_certFile_of_set (by simp [string, newNamedCertKeyArray]) hset
    have hmem : nkc ∈ l := by
      rw [← hcerts, hone]
      exact List.mem_singleton.2 rfl
    exact (hl nkc hmem).certFile.notMem (by decide) hbracket
  · rintro rfl
    have hnull : (newNamedCertKeyArray []).marshalJSON j = "null" := rfl
    refine ⟨⟨newNamedCertKeyArray [], ?_, rfl⟩, htext⟩
    rw [hnull, unmarshalJSON, if_pos ⟨by decide, rfl⟩]

/-- JSON strings without escapes, which the texts here do not need. -/
def quotes : StringJSON where
  marshal s := "\"" ++ s ++ "\""
  unmarshal b := .ok (trimSuffix (trimPrefix b "\"") "\"")
  unmarshal_marshal s := by
    rw [String.append_assoc, trimPrefix_append, trimSuffix_append]
  marshal_ne_null s h := by
    have := congrArg (·.toList.head?) h
    simp at this

/-- A certificate without names. -/
def server : NamedCertKey where
  certFile := "server.crt"
  keyFile := "server.key"

theorem server_plain : server.Plain :=
  ⟨⟨by decide, by decide, by simp [server]⟩, ⟨by decide, by decide, by simp [server]⟩,
    fun _ hmem => absurd hmem List.not_mem_nil⟩

theorem survives_iff_server :
    (∀ nkc ∈ [server], nkc.Plain) ∧ (Survives quotes [server] ↔ [server] = []) :=
  have hplain : ∀ nkc ∈ [server], nkc.Plain := by simpa using server_plain
  ⟨hplain, (survives_iff quotes hplain).1⟩

theorem not_survives_one : ¬Survives quotes [server] := by
  rintro ⟨⟨a, hjson, hcerts⟩, -⟩
  have hread : (newNamedCertKeyArray []).unmarshalJSON quotes
      ((newNamedCertKeyArray [server]).marshalJSON quotes) =
        some (none,
          newNamedCertKeyArray [{ certFile := "[server.crt", keyFile := "server.key]" }]) := by
    decide
  rw [hread] at hjson
  cases hjson
  exact absurd hcerts (by decide)

end NamedCertKeyArray

end Apiserver.Flag
