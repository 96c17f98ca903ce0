import Apiserver.Abac.Policy

/-!
# Policy files

A policy file has a JSON object on each line (`NewFromFile`). A line is read as
a `Policy`, which has its fields in a member `spec`. If that fails, or gives a
policy without a subject, the same line is read once more, as a `PolicySpec`
with the fields at the top, and completed by the defaults of an older version
of the format (`validateV0`). The decoder ignores members it has no field for.

* `newFromFile_eq`: a file that loads has a policy for every line with one;
* `faithful_iff`: a line with a member `spec` grants no more than that member
  says exactly when it is accepted as a `Policy` and its spec names something
  to match. Any other line that loads grants requests its spec does not.
-/

namespace Apiserver.Abac

open Go

/-! ## Decoding -/

/-- A JSON value; the members of an object in the order they are written. -/
inductive Json
  | null
  | bool (b : Bool)
  | num (text : String)
  | str (s : String)
  | arr (elems : List Json)
  | obj (members : List (String × Json))

/-- The decoder of golib: it parses a text, and fills the fields of a struct
    whose names match the keys of an object. Whether a key in another case
    matches is left open, as is the error for a value of the wrong type. -/
structure Decoder where
  parse : String → Except Error Json
  fieldMatches : String → String → Bool
  typeError : String → Json → Error

namespace Decoder

variable (d : Decoder)

/-- Filling a field of type string. -/
def setString (field : String) (old : String) : Json → Except Error String
  | .null => .ok old
  | .str s => .ok s
  | v => .error (d.typeError field v)

/-- Filling a field of type bool. -/
def setBool (field : String) (old : Bool) : Json → Except Error Bool
  | .null => .ok old
  | .bool b => .ok b
  | v => .error (d.typeError field v)

/-- Filling the field of a `PolicySpec` that a key matches, if there is one. -/
def setSpecField (s : PolicySpec) (key : String) (v : Json) : Except Error PolicySpec :=
  if d.fieldMatches "user" key then
    (d.setString "user" s.user v).map fun user => { s with user }
  else if d.fieldMatches "group" key then
    (d.setString "group" s.group v).map fun group => { s with group }
  else if d.fieldMatches "readonly" key then
    (d.setBool "readonly" s.readonly v).map fun readonly => { s with readonly }
  else if d.fieldMatches "apiGroup" key then
    (d.setString "apiGroup" s.apiGroup v).map fun apiGroup => { s with apiGroup }
  else if d.fieldMatches "resource" key then
    (d.setString "resource" s.resource v).map fun resource => { s with resource }
  else if d.fieldMatches "namespace" key then
    (d.setString "namespace" s.ns v).map fun ns => { s with ns }
  else if d.fieldMatches "nonResourcePath" key then
    (d.setString "nonResourcePath" s.nonResourcePath v).map
      fun nonResourcePath => { s with nonResourcePath }
  else .ok s

/-- Filling a `PolicySpec`. -/
def setSpec (s : PolicySpec) : Json → Except Error PolicySpec
  | .null => .ok s
  | .obj members => members.foldlM (fun s (key, v) => d.setSpecField s key v) s
  | v => .error (d.typeError "spec" v)

/-- Filling the field of a `Policy` that a key matches, if there is one. -/
def setPolicyField (p : Policy) (key : String) (v : Json) : Except Error Policy :=
  if d.fieldMatches "kind" key then
    (d.setString "kind" p.kind v).map fun kind => { p with kind }
  else if d.fieldMatches "spec" key then
    (d.setSpec p.spec v).map fun spec => { p with spec }
  else .ok p

/-- Filling a `Policy`. -/
def setPolicy (p : Policy) : Json → Except Error Policy
  | .null => .ok p
  | .obj members => members.foldlM (fun p (key, v) => d.setPolicyField p key v) p
  | v => .error (d.typeError "" v)

/-- `Decode` into a `Policy`. -/
def decodePolicy (line : String) : Except Error Policy := do d.setPolicy {} (← d.parse line)

/-- `Decode` into a `PolicySpec`. -/
def decodeSpec (line : String) : Except Error PolicySpec := do d.setSpec {} (← d.parse line)

end Decoder

/-! ## Loading -/

/-- `Validate`. -/
def Policy.validate (p : Policy) : Option Error :=
  if p.spec.user = "" ∧ p.spec.group = "" then some "user and group both empty" else none

/-- `ValidateV0`: the defaults of the format without versions. -/
def PolicySpec.validateV0 (s : PolicySpec) : PolicySpec :=
  { s with
    apiGroup := "*"
    ns := if s.ns = "" then "*" else s.ns
    resource := if s.resource = "" then "*" else s.resource
    group := if s.user = "" ∧ s.group = "" then "system:authenticated" else s.group }

/-- Comments and blank lines. -/
def skipped (line : String) : Bool :=
  let trimmed := trimSpace line
  trimmed.isEmpty || hasPrefix trimmed "#"

variable (d : Decoder)

/-- The second reading of a line. -/
def loadOldPolicy (line : String) : Except Error Policy :=
  (d.decodeSpec line).map fun old => { spec := old.validateV0 }

/-- The policy of a line that is not skipped. -/
def loadPolicy (line : String) : Except Error Policy :=
  match d.decodePolicy line with
  | .ok policy => if policy.validate = none then .ok policy else loadOldPolicy d line
  | .error _ => loadOldPolicy d line

/-- The loop of `NewFromFile`, from line number `i + 1` on. -/
def loadLines (path : String) : Nat → List String → Except Error (List Policy)
  | _, [] => .ok []
  | i, line :: l =>
    if skipped line then loadLines path (i + 1) l
    else match loadPolicy d line with
      | .error err => .error ("error reading policy file " ++ path ++ ", line " ++
          toString (i + 1) ++ ": " ++ line ++ ": " ++ err)
      | .ok policy => (loadLines path (i + 1) l).map (policy :: ·)

/-- `NewFromFile`, on what opening the file and scanning it gives: the lines read,
    and the error at which the scanner stopped, if it did. -/
def newFromFile (path : String) (file : Except Error (List String × Option Error)) :
    Except Error (List Policy) :=
  match file with
  | .error err => .error ("open --authorization-policy-file=" ++ path ++ " error " ++ err)
  | .ok (lines, scanErr) => match loadLines d path 0 lines with
    | .error err => .error err
    | .ok pl => match scanErr with
      | some err => .error ("error reading policy file " ++ path ++ ": " ++ err)
      | none => .ok pl

variable {d}

/-- A file that loads has a policy for every line that is not skipped. -/
theorem loadLines_eq {path : String} {i : Nat} {lines : List String} {pl : List Policy}
    (h : loadLines d path i lines = .ok pl) :
    (lines.filter (! skipped ·)).map (loadPolicy d) = pl.map .ok := by
  induction lines generalizing i pl with
  | nil =>
    cases h
    rfl
  | cons line l ih =>
    rw [loadLines] at h
    split at h
    case isTrue hs =>
      rw [List.filter_cons_of_neg (by simp [hs])]
      exact ih h
    case isFalse hs =>
      rw [List.filter_cons_of_pos (by simp [hs])]
      split at h
      · cases h
      case h_2 policy hp =>
        obtain ⟨pl', hl, rfl⟩ := map_eq_ok h
        rw [List.map_cons, List.map_cons, hp, ih hl]

/-- A file that is taken has a policy for every line that counts. -/
theorem newFromFile_eq {path : String} {file : Except Error (List String × Option Error)}
    {pl : List Policy} (h : newFromFile d path file = .ok pl) :
    ∃ lines, file = .ok (lines, none) ∧
      (lines.filter (! skipped ·)).map (loadPolicy d) = pl.map .ok := by
  rw [newFromFile.eq_def] at h
  split at h
  · cases h
  case h_2 lines scanErr =>
    split at h
    · cases h
    case h_2 pl' hl =>
      cases scanErr with
      | some err => cases h
      | none =>
        cases h
        exact ⟨lines, rfl, loadLines_eq hl⟩

/-! ## Lines with a spec -/

variable (d) in
/-- A line with a JSON object that has a member `spec`. -/
structure VersionedLine where
  text : String
  members : List (String × Json)
  parse_eq : d.parse text = .ok (.obj members)
  spec_mem : "spec" ∈ members.map Prod.fst
  not_skipped : skipped text = false

/-- A line grants no more than its own spec says: every request granted by the
    policy `p` that was loaded from it is granted by its spec as written, and if
    the spec names nothing to match then no request is. -/
def VersionedLine.Faithful (line : VersionedLine d) (p : Policy) : Prop :=
  ∀ a, policyMatches p a = true →
    ∃ own, d.decodePolicy line.text = .ok own ∧ own.spec.Grants a ∧ own.spec.NamesTarget

theorem Policy.validate_eq_none {p : Policy} : p.validate = none ↔ p.spec.NamesSubject := by
  rw [Policy.validate, PolicySpec.NamesSubject]
  split_ifs with h
  · simp [h]
  · simp only [true_iff]
    by_contra hn
    push Not at hn
    exact h hn

theorem PolicySpec.validateV0_namesSubject (s : PolicySpec) : s.validateV0.NamesSubject := by
  rw [PolicySpec.NamesSubject, PolicySpec.validateV0]
  by_cases hu : s.user = ""
  · by_cases hg : s.group = "" <;> simp [hu, hg]
  · exact .inl hu

/-- Whichever way a line is read, its policy names a subject. -/
theorem namesSubject_of_loadPolicy {line : String} {p : Policy} (h : loadPolicy d line = .ok p) :
    p.spec.NamesSubject := by
  have old (h : loadOldPolicy d line = .ok p) : p.spec.NamesSubject := by
    obtain ⟨s, -, rfl⟩ := map_eq_ok h
    exact s.validateV0_namesSubject
  rw [loadPolicy] at h
  split at h
  · split at h
    case isTrue hv =>
      cases h
      exact Policy.validate_eq_none.1 hv
    case isFalse => exact old h
  · exact old h

/-- A line that is not skipped, of a file that loads, has its policy in the list. -/
theorem exists_loadPolicy {path : String} {lines : List String} {pl : List Policy}
    (h : newFromFile d path (.ok (lines, none)) = .ok pl) {line : String} (hmem : line ∈ lines)
    (hs : skipped line = false) : ∃ p ∈ pl, loadPolicy d line = .ok p := by
  obtain ⟨lines', heq, hpl⟩ := newFromFile_eq h
  cases heq
  have hmem' : loadPolicy d line ∈ pl.map Except.ok := by
    rw [← hpl]
    exact List.mem_map_of_mem (List.mem_filter.2 ⟨hmem, by simp [hs]⟩)
  obtain ⟨p, hp, heq⟩ := List.mem_map.1 hmem'
  exact ⟨p, hp, heq.symm⟩

/-- A line of a file that loads grants no more than its spec says exactly when it
    is accepted as a `Policy`, with a subject, and names something to match. -/
theorem faithful_iff {path : String} {lines : List String} {pl : List Policy}
    (h : newFromFile d path (.ok (lines, none)) = .ok pl) (line : VersionedLine d)
    (hmem : line.text ∈ lines) :
    ∃ p ∈ pl, loadPolicy d line.text = .ok p ∧
      (line.Faithful p ↔ ∃ own, d.decodePolicy line.text = .ok own ∧ own.spec.NamesSubject ∧
        own.spec.NamesTarget) := by
  obtain ⟨p, hp, hload⟩ := exists_loadPolicy h hmem line.not_skipped
  refine ⟨p, hp, hload, fun hf => ?_, ?_⟩
  · -- The policy names a subject, so there is a request that it grants.
    have hsubject := namesSubject_of_loadPolicy hload
    obtain ⟨own, hown, hgrants, htarget⟩ :=
      hf _ (policyMatches_iff.2 (PolicySpec.grants_request hsubject))
    exact ⟨own, hown, hgrants.namesSubject, htarget⟩
  · rintro ⟨own, hown, hsubject, htarget⟩ a ha
    have hp' : p = own := by
      rw [loadPolicy, hown] at hload
      dsimp only at hload
      rw [if_pos (Policy.validate_eq_none.2 hsubject)] at hload
      exact (Except.ok.inj hload).symm
    subst hp'
    exact ⟨p, hown, policyMatches_iff.1 ha, htarget⟩

/-! ## A line without a subject -/

def exampleText : String :=
  "\x7b\"spec\":\x7b\"user\":\"alice\",\"resource\":\"pods\"\x7d\x7d"

def subjectlessText : String :=
  "\x7b\"spec\":\x7b\"readonly\":true,\"resource\":\"pods\"\x7d\x7d"

/-- A decoder that knows the two lines, and takes keys as they are. -/
def exampleDecoder : Decoder where
  parse line :=
    if line = exampleText then
      .ok (.obj [("spec", .obj [("user", .str "alice"), ("resource", .str "pods")])])
    else if line = subjectlessText then
      .ok (.obj [("spec", .obj [("readonly", .bool true), ("resource", .str "pods")])])
    else .error "invalid character"
  fieldMatches field key := field == key
  typeError field _ := "cannot unmarshal into field " ++ field

/-- A line with a subject. -/
def exampleLine : VersionedLine exampleDecoder where
  text := exampleText
  members := _
  parse_eq := rfl
  spec_mem := by decide
  not_skipped := rfl

/-- A line whose author forgot the subject. -/
def subjectlessLine : VersionedLine exampleDecoder where
  text := subjectlessText
  members := _
  parse_eq := rfl
  spec_mem := by decide
  not_skipped := rfl

theorem exampleLine_faithful :
    ∃ pl, newFromFile exampleDecoder "policy.jsonl" (.ok ([exampleLine.text], none)) = .ok pl ∧
      ∃ p ∈ pl, exampleLine.Faithful p := by
  refine ⟨_, rfl, ?_⟩
  obtain ⟨p, hp, -, hiff⟩ := faithful_iff
    (rfl : newFromFile exampleDecoder "policy.jsonl" (.ok ([exampleLine.text], none)) = .ok _)
    exampleLine List.mem_cons_self
  exact ⟨p, hp, hiff.2 ⟨_, rfl, .inl (by decide), .inr (.inl (by decide))⟩⟩

/-- The line loads, and lets every authenticated user delete secrets. -/
theorem subjectlessLine_not_faithful :
    ∃ p, newFromFile exampleDecoder "policy.jsonl" (.ok ([subjectlessLine.text], none)) = .ok [p] ∧
      policyMatches p
        { user := some { name := "mallory", groups := ["system:authenticated"] }
          verb := "delete"
          ns := "kube-system"
          resource := "secrets"
          resourceRequest := true } = true ∧
      ¬ subjectlessLine.Faithful p := by
  refine ⟨_, rfl, by decide, fun hf => ?_⟩
  obtain ⟨own, hown, hgrants, -⟩ := hf
    { user := some { name := "mallory", groups := ["system:authenticated"] }
      resourceRequest := true } (by decide)
  cases hown
  rcases hgrants.namesSubject with h | h <;> exact h rfl

end Apiserver.Abac
