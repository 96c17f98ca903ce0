import Apiserver.Request.RequestInfo

/-!
# The indices of the parser

`NewRequestInfo` consumes the slice of the parts of a path from the left, and
takes indices of what is left of it after comparing its length. Here this is
written out: a body that indexes a slice out of range stops there. What the
path says (`readPath`) is then refined by what the query says (`refineVerb`).

* `newRequestInfo_eq`: this is `newRequestInfo`;
* `readPath_inRange`: every index and every slice is in range, for every path;
* `selectorNames_iff`: when the field selector of a nameless request names its object.
-/

namespace Apiserver

open Go

/-- How a body stops before its end. -/
inductive Stop
  | returned (info : RequestInfo) (err : Option Error)
  | outOfRange
  deriving DecidableEq

/-- The index expression `parts[i]`. -/
def index (parts : List String) (i : Nat) : Except Stop String :=
  match parts[i]? with
  | some part => .ok part
  | none => .error .outOfRange

/-- The slice expression `parts[i:]`. -/
def sliceFrom (parts : List String) (i : Nat) : Except Stop (List String) :=
  if i ≤ parts.length then .ok (parts.drop i) else .error .outOfRange

@[simp] theorem throw_bind {α β : Type} (stop : Stop) (g : α → Except Stop β) :
    (throw stop >>= g) = throw stop := rfl

@[simp] theorem map_throw {α β : Type} (g : α → β) (stop : Stop) :
    (g <$> throw stop : Except Stop β) = throw stop := rfl

@[simp] theorem index_cons_zero (part : String) (rest : List String) :
    index (part :: rest) 0 = pure part := rfl

@[simp] theorem index_cons_succ (part : String) (rest : List String) (i : Nat) :
    index (part :: rest) (i + 1) = index rest i := rfl

@[simp] theorem sliceFrom_zero (parts : List String) : sliceFrom parts 0 = pure parts := rfl

@[simp] theorem sliceFrom_cons_succ (part : String) (rest : List String) (i : Nat) :
    sliceFrom (part :: rest) (i + 1) = sliceFrom rest i := by
  simp [sliceFrom]

namespace RequestInfoFactory

variable (f : RequestInfoFactory) (req : Request)

/-! ## The stages -/

/-- The prefix, the group and the version. -/
def readVersion : Except Stop (RequestInfo × List String) := do
  let mut info : RequestInfo := { path := req.path, verb := toLower req.method }
  let mut currentParts := splitPath req.path
  if currentParts.length < 3 then
    throw (.returned info none)
  if (← index currentParts 0) ∉ f.apiPrefixes then
    throw (.returned info none)
  info := { info with apiPrefix := ← index currentParts 0 }
  currentParts ← sliceFrom currentParts 1
  if info.apiPrefix ∉ f.grouplessAPIPrefixes then
    if currentParts.length < 3 then
      throw (.returned info none)
    info := { info with apiGroup := ← index currentParts 0 }
    currentParts ← sliceFrom currentParts 1
  info := { info with isResourceRequest := true, apiVersion := ← index currentParts 0 }
  currentParts ← sliceFrom currentParts 1
  return (info, currentParts)

/-- The verb. -/
def readVerb (info : RequestInfo) (currentParts : List String) :
    Except Stop (RequestInfo × List String) := do
  if (← index currentParts 0) ∈ specialVerbs then
    if currentParts.length < 2 then
      throw (.returned info
        (some ("unable to determine kind and namespace from url, " ++ f.showURL req)))
    return ({ info with verb := ← index currentParts 0 }, ← sliceFrom currentParts 1)
  else
    return ({ info with verb := methodVerb req.method }, currentParts)

/-- The namespace. -/
def readNamespace (info : RequestInfo) (currentParts : List String) :
    Except Stop (RequestInfo × List String) := do
  if (← index currentParts 0) = "namespaces" then
    if currentParts.length > 1 then
      let info := { info with ns := ← index currentParts 1 }
      if currentParts.length > 2 then
        if (← index currentParts 2) ∉ namespaceSubresources then
          return (info, ← sliceFrom currentParts 2)
      return (info, currentParts)
    return (info, currentParts)
  else
    return ({ info with ns := "" }, currentParts)

/-- The resource, the name and the subresource: the cases of the switch fall
    through. -/
def readParts (info : RequestInfo) (currentParts : List String) : Except Stop RequestInfo := do
  let mut info := { info with parts := currentParts }
  if info.parts.length ≥ 3 ∧ info.verb ∉ specialVerbsNoSubresources then
    info := { info with subresource := ← index info.parts 2 }
    info := { info with name := ← index info.parts 1 }
    return { info with resource := ← index info.parts 0 }
  if info.parts.length ≥ 2 then
    info := { info with name := ← index info.parts 1 }
    return { info with resource := ← index info.parts 0 }
  if info.parts.length ≥ 1 then
    return { info with resource := ← index info.parts 0 }
  return info

/-- What the path of a request and its method say. -/
def readPath : Except Stop RequestInfo := do
  let (info, currentParts) ← f.readVersion req
  let (info, currentParts) ← f.readVerb req info currentParts
  let (info, currentParts) ← readNamespace info currentParts
  readParts info currentParts

/-- What a body that stopped, or went on with what the query says, comes to. -/
def finish : Except Stop RequestInfo → Parsed
  | .ok info => f.refineVerb req info
  | .error (.returned info err) => .returned info err
  | .error .outOfRange => .panicked

variable {f req}

/-! ## The stages make up the parser -/

@[simp] theorem finish_pure (info : RequestInfo) :
    f.finish req (pure info) = f.refineVerb req info := rfl

@[simp] theorem finish_returned (info : RequestInfo) (err : Option Error) :
    f.finish req (throw (.returned info err)) = .returned info err := rfl

theorem finish_readParts (info : RequestInfo) (parts : List String) :
    f.finish req (readParts info parts) = f.parseParts req info parts := by
  match parts with
  | [] => rfl
  | [_] => rfl
  | [_, _] => rfl
  | resource :: name :: subresource :: rest =>
    by_cases hv : info.verb ∈ specialVerbsNoSubresources
    · simp [readParts, parseParts, hv]
    · simp [readParts, parseParts, hv]

/-- The parser with early returns, from the namespace on, -/
theorem finish_readNamespace (info : RequestInfo) (part : String) (rest : List String) :
    f.finish req (readNamespace info (part :: rest) >>= fun p => readParts p.1 p.2) =
      f.parseNamespace req info part rest := by
  by_cases hp : part = "namespaces"
  · match rest with
    | [] => simp [readNamespace, parseNamespace, hp, finish_readParts]
    | [ns] => simp [readNamespace, parseNamespace, hp, finish_readParts]
    | ns :: resource :: rest =>
      by_cases hr : resource ∈ namespaceSubresources
      · simp [readNamespace, parseNamespace, hp, hr, finish_readParts]
      · simp [readNamespace, parseNamespace, hp, hr, finish_readParts]
  · simp [readNamespace, parseNamespace, hp, finish_readParts]

/-- and from the verb on. -/
theorem finish_readVerb (info : RequestInfo) (part : String) (rest : List String) :
    f.finish req (do
      let (info, currentParts) ← f.readVerb req info (part :: rest)
      let (info, currentParts) ← readNamespace info currentParts
      readParts info currentParts) = f.parseVerb req info part rest := by
  by_cases hp : part ∈ specialVerbs
  · match rest with
    | [] => simp [readVerb, parseVerb, hp]
    | part' :: rest => simp +arith [readVerb, parseVerb, hp, finish_readNamespace]
  · simp [readVerb, parseVerb, hp, finish_readNamespace]

/-- The stages, one after the other, are the parser. -/
theorem newRequestInfo_eq : f.newRequestInfo req = f.finish req (f.readPath req) := by
  rw [newRequestInfo, readPath, readVersion]
  rcases splitPath req.path with _ | ⟨part₀, _ | ⟨part₁, _ | ⟨part₂, rest⟩⟩⟩
  · simp
  · simp
  · simp
  · by_cases h₀ : part₀ ∈ f.apiPrefixes
    · by_cases hless : part₀ ∈ f.grouplessAPIPrefixes
      · simp +arith [h₀, hless, finish_readVerb]
      · cases rest with
        | nil => simp [h₀, hless]
        | cons part₃ rest => simp +arith [h₀, hless, finish_readVerb]
    · simp +arith [h₀]

/-! ## Every index is in range -/

/-- A body that indexes nothing out of range, and whose results satisfy `P`. -/
inductive Within {α : Type} (P : α → Prop) : Except Stop α → Prop
  | ok {a : α} : P a → Within P (.ok a)
  | returned {info : RequestInfo} {err : Option Error} : Within P (.error (.returned info err))

@[simp] theorem within_pure {α : Type} {P : α → Prop} {a : α} :
    Within P (pure a : Except Stop α) ↔ P a :=
  ⟨fun | .ok h => h, .ok⟩

variable {info : RequestInfo}

@[simp] theorem within_returned {α : Type} {P : α → Prop} {err : Option Error} :
    Within P (throw (.returned info err) : Except Stop α) := .returned

theorem Within.mono {α : Type} {P Q : α → Prop} {x : Except Stop α} (hx : Within P x)
    (h : ∀ a, P a → Q a) : Within Q x := by
  cases hx with
  | ok ha => exact .ok (h _ ha)
  | returned => exact .returned

theorem Within.bind {α β : Type} {P : α → Prop} {Q : β → Prop} {x : Except Stop α}
    {g : α → Except Stop β} (hx : Within P x) (hg : ∀ a, P a → Within Q (g a)) :
    Within Q (x >>= g) := by
  cases hx with
  | ok ha => exact hg _ ha
  | returned => exact .returned

/-- Whatever follows the version is a request for a resource. -/
theorem readVersion_within :
    Within (fun p => p.1.isResourceRequest = true ∧ p.2 ≠ []) (f.readVersion req) := by
  rw [readVersion]
  match splitPath req.path with
  | [] => simp
  | [_] => simp
  | [_, _] => simp
  | part₀ :: part₁ :: part₂ :: rest =>
    by_cases h₀ : part₀ ∈ f.apiPrefixes
    · by_cases hless : part₀ ∈ f.grouplessAPIPrefixes
      · simp +arith [h₀, hless]
      · cases rest with
        | nil => simp [h₀, hless]
        | cons part₃ rest => simp +arith [h₀, hless]
    · simp +arith [h₀]

/-- A verb that stands in the path is a special one, and any other comes from
    the method. -/
def VerbOf (method verb : String) : Prop := verb = methodVerb method ∨ verb ∈ specialVerbs

theorem readVerb_within (info : RequestInfo) (part : String) (rest : List String) :
    Within (fun p => VerbOf req.method p.1.verb ∧
        p.1.isResourceRequest = info.isResourceRequest ∧ p.2 ≠ [])
      (f.readVerb req info (part :: rest)) := by
  by_cases hp : part ∈ specialVerbs
  · match rest with
    | [] => simp [readVerb, hp]
    | part' :: rest => simp +arith [readVerb, VerbOf, hp]
  · simp [readVerb, VerbOf, hp]

/-- Reading the namespace keeps the verb. -/
theorem readNamespace_within (info : RequestInfo) (part : String) (rest : List String) :
    Within (fun p => p.1.verb = info.verb ∧ p.1.isResourceRequest = info.isResourceRequest)
      (readNamespace info (part :: rest)) := by
  by_cases hp : part = "namespaces"
  · match rest with
    | [] => simp [readNamespace, hp]
    | [ns] => simp [readNamespace, hp]
    | ns :: resource :: rest =>
      by_cases hr : resource ∈ namespaceSubresources
      · simp [readNamespace, hp, hr]
      · simp [readNamespace, hp, hr]
  · simp [readNamespace, hp]

theorem readParts_within (info : RequestInfo) (parts : List String) :
    Within (fun info' => info'.verb = info.verb ∧
      info'.isResourceRequest = info.isResourceRequest) (readParts info parts) := by
  match parts with
  | [] => exact .ok ⟨rfl, rfl⟩
  | [_] => exact .ok ⟨rfl, rfl⟩
  | [_, _] => exact .ok ⟨rfl, rfl⟩
  | resource :: name :: subresource :: rest =>
    by_cases hv : info.verb ∈ specialVerbsNoSubresources
    · simp [readParts, hv]
    · simp [readParts, hv]

/-- Every index is in range, and a path that is read to its end is that of a
    resource request. -/
theorem readPath_within :
    Within (fun info => VerbOf req.method info.verb ∧ info.isResourceRequest = true)
      (f.readPath req) := by
  rw [readPath]
  refine readVersion_within.bind ?_
  rintro ⟨info, _ | ⟨part, rest⟩⟩ ⟨hinfo, hparts⟩
  · exact absurd rfl hparts
  refine (readVerb_within info part rest).bind ?_
  rintro ⟨info₁, _ | ⟨part₁, rest₁⟩⟩ ⟨hverb₁, hinfo₁, hparts₁⟩
  · exact absurd rfl hparts₁
  refine (readNamespace_within info₁ part₁ rest₁).bind ?_
  rintro ⟨info₂, parts₂⟩ ⟨hverb₂, hinfo₂⟩
  refine (readParts_within info₂ parts₂).mono ?_
  rintro info₃ ⟨hverb₃, hinfo₃⟩
  dsimp only at hverb₁ hinfo₁ hverb₂ hinfo₂ hinfo
  rw [hverb₃, hverb₂, hinfo₃, hinfo₂, hinfo₁, hinfo]
  exact ⟨hverb₁, rfl⟩

theorem readPath_inRange (f : RequestInfoFactory) (req : Request) :
    f.readPath req ≠ .error .outOfRange := by
  intro h
  have hw : Within _ (f.readPath req) := readPath_within
  rw [h] at hw
  cases hw

theorem verbOf_of_readPath (h : f.readPath req = .ok info) :
    VerbOf req.method info.verb := by
  have hw : Within _ (f.readPath req) := readPath_within
  rw [h] at hw
  cases hw with
  | ok hinfo => exact hinfo.1

/-! ## Field selectors -/

variable (f req)

/-- The field selector of the options, if it is set, parses. -/
def SelectorParses : Prop :=
  (f.listOptions req).fieldSelector = "" ∨
    (f.parseSelector (f.listOptions req).fieldSelector).2 = none

/-- What the field selector of the options requires of `metadata.name`, if it
    is set and parses. -/
def pinnedName : Option String :=
  if (f.listOptions req).fieldSelector = "" then none
  else match f.parseSelector (f.listOptions req).fieldSelector with
    | (some requiresExactMatch, none) => requiresExactMatch "metadata.name"
    | _ => none

/-- The name a selector gives a request. -/
def selectedName (requiresExactMatch : String → Option String) : String :=
  match requiresExactMatch "metadata.name" with
  | some name => if f.isValidPathSegmentName name = [] then name else ""
  | none => ""

/-- The field selector of a nameless request names its object. -/
structure SelectorNames : Prop where
  /-- A selector that pins the name to a valid one gives the request that name. -/
  pinned : ∀ x, f.pinnedName req = some x → f.isValidPathSegmentName x = [] →
    ∃ info err, f.newRequestInfo req = .returned info err ∧ info.name = x
  /-- Under any other selector the request lists or watches. -/
  unpinned : f.pinnedName req = none →
    ∃ info, f.newRequestInfo req = .returned info none ∧ info.name = "" ∧
      (info.verb = "list" ∨ info.verb = "watch")

variable {f req}

/-- The query of a nameless get, if the selector parses: it is not looked at. -/
theorem refineVerb_of_parses (hname : info.name = "") (hverb : info.verb = "get")
    (hparse : f.SelectorParses req) :
    f.refineVerb req info = .returned
      { info with verb := if (f.listOptions req).watch then "watch" else "list" } none := by
  rw [refineVerb, if_pos ⟨hname, hverb⟩]
  dsimp only
  by_cases hfs : (f.listOptions req).fieldSelector = ""
  · rw [if_neg (not_not.2 hfs)]
  · have hnone := hparse.resolve_left hfs
    rw [if_pos hfs]
    rcases hp : f.parseSelector (f.listOptions req).fieldSelector with ⟨selector, err⟩
    rw [hp] at hnone
    obtain rfl : err = none := hnone
    rfl

/-- If it does not parse, the selector that comes with the error is acted upon. -/
theorem refineVerb_of_not_parses (hname : info.name = "") (hverb : info.verb = "get")
    (hparse : ¬ f.SelectorParses req) :
    f.refineVerb req info =
      match (f.parseSelector (f.listOptions req).fieldSelector).1 with
      | none => .panicked
      | some requiresExactMatch => .returned
        { info with
          verb := if (f.listOptions req).watch then "watch" else "list"
          name := f.selectedName requiresExactMatch } none := by
  obtain ⟨hfs, herr⟩ := not_or.1 hparse
  rw [refineVerb, if_pos ⟨hname, hverb⟩]
  dsimp only
  rw [if_pos hfs]
  rcases hp : f.parseSelector (f.listOptions req).fieldSelector with ⟨selector, err⟩
  rw [hp] at herr
  obtain ⟨err, rfl⟩ := Option.ne_none_iff_exists'.1 herr
  cases selector with
  | none => rfl
  | some requiresExactMatch =>
    dsimp only [selectedName]
    cases requiresExactMatch "metadata.name" with
    | none => simp [hname]
    | some name => by_cases hvalid : f.isValidPathSegmentName name = [] <;> simp [hvalid, hname]

/-- A special verb is kept. -/
theorem refineVerb_special (hverb : info.verb ∈ specialVerbs) :
    f.refineVerb req info = .returned info none := by
  have hget : info.verb ≠ "get" := ne_of_mem_of_not_mem hverb (by decide)
  have hdelete : info.verb ≠ "delete" := ne_of_mem_of_not_mem hverb (by decide)
  rw [refineVerb, if_neg (fun h => hget h.2), if_neg (fun h => hdelete h.2)]

/-- A selector that pins the name parses. -/
theorem selectorParses_of_pinnedName {x : String} (h : f.pinnedName req = some x) :
    f.SelectorParses req := by
  rw [pinnedName] at h
  split at h
  · cases h
  · split at h
    case h_1 hp => exact .inr (by rw [hp])
    case h_2 => cases h

/-- A request that is read without a name. -/
theorem selectorNames_iff_of_returned (hinfo : f.newRequestInfo req = .returned info none)
    (hname : info.name = "") :
    f.SelectorNames req ↔
      (∀ x, f.pinnedName req = some x → f.isValidPathSegmentName x = [] → x = "") ∧
      (f.pinnedName req = none → info.verb = "list" ∨ info.verb = "watch") := by
  constructor
  · intro h
    refine ⟨fun x hx hvalid => ?_, fun hnone => ?_⟩
    · obtain ⟨info', err, hret, rfl⟩ := h.pinned x hx hvalid
      rw [hinfo] at hret
      cases hret
      exact hname
    · obtain ⟨info', hret, -, hlist⟩ := h.unpinned hnone
      rw [hinfo] at hret
      cases hret
      exact hlist
  · rintro ⟨hpin, hlist⟩
    refine ⟨fun x hx hvalid => ⟨info, none, hinfo, ?_⟩, fun hnone => ?_⟩
    · rw [hname, hpin x hx hvalid]
    · exact ⟨info, hinfo, hname, hlist hnone⟩

/-- The source acts on the selector when its parse fails, so a nameless get is
    only served as it should be if the selector parses and names nothing. The
    special verbs do not look at the selector. -/
theorem selectorNames_iff
    (hnil : ∀ s err, (f.parseSelector s).2 = some err → (f.parseSelector s).1 = none)
    {info : RequestInfo} (hread : f.readPath req = .ok info) (hname : info.name = "")
    (hmethod : req.method = "GET" ∨ req.method = "HEAD") :
    f.SelectorNames req ↔
      (∀ x, f.pinnedName req = some x → f.isValidPathSegmentName x = [] → x = "") ∧
      (f.pinnedName req = none →
        info.verb ≠ "proxy" ∧ (info.verb = "get" → f.SelectorParses req)) := by
  have hinfo : f.newRequestInfo req = f.refineVerb req info := by
    rw [newRequestInfo_eq, hread]
    rfl
  have hget : methodVerb req.method = "get" := by
    rcases hmethod with h | h <;> rw [h] <;> rfl
  rcases verbOf_of_readPath hread with hverb | hverb
  · rw [hget] at hverb
    by_cases hparse : f.SelectorParses req
    · rw [refineVerb_of_parses hname hverb hparse] at hinfo
      rw [selectorNames_iff_of_returned hinfo hname]
      refine and_congr_right fun _ => iff_of_true (fun _ => ?_) fun _ => ⟨?_, fun _ => hparse⟩
      · dsimp only
        split_ifs
        · exact .inr rfl
        · exact .inl rfl
      · rw [hverb]
        decide
    · -- The parser panics, and the selector pins nothing.
      have hnone : f.pinnedName req = none :=
        Option.eq_none_iff_forall_ne_some.2 fun x hx => hparse (selectorParses_of_pinnedName hx)
      obtain ⟨err, herr⟩ := Option.ne_none_iff_exists'.1 (not_or.1 hparse).2
      rw [refineVerb_of_not_parses hname hverb hparse, hnil _ err herr] at hinfo
      refine iff_of_false (fun h => ?_) fun h => hparse ((h.2 hnone).2 hverb)
      obtain ⟨info', hret, -⟩ := h.unpinned hnone
      rw [hinfo] at hret
      cases hret
  · -- The verb stands in the path, and the query is not looked at.
    rw [refineVerb_special hverb] at hinfo
    rw [selectorNames_iff_of_returned hinfo hname]
    refine and_congr_right fun _ => forall_congr' fun _ => ?_
    rw [specialVerbs, List.mem_cons, List.mem_singleton] at hverb
    rcases hverb with hverb | hverb <;> simp [hverb]

/-- A parser of selectors of the one form `field=value`. -/
def parseEquality (s : String) : Option (String → Option String) × Option Error :=
  match splitN s '=' 2 with
  | [field, value] => (some fun field' => if field' = field then some value else none, none)
  | _ => (none, some "invalid selector")

theorem parseEquality_nil (s : String) (err : Error) (h : (parseEquality s).2 = some err) :
    (parseEquality s).1 = none := by
  rw [parseEquality] at h ⊢
  split at h
  · cases h
  · rfl

/-- A factory with the prefixes of the server, and the options taken from the
    query as they are. -/
def sample : RequestInfoFactory where
  apiPrefixes := ["api", "apis"]
  grouplessAPIPrefixes := ["api"]
  decodeListOptions query := .ok
    { watch := query.index "watch" = ["true"],
      fieldSelector := (query.index "fieldSelector").headD "" }
  parseSelector := parseEquality
  isValidPathSegmentName name :=
    if name = "." ∨ name = ".." then ["may not be '.' or '..'"]
    else if containsRune name '/' ∨ containsRune name '%' then ["may not contain '/' or '%'"]
    else []
  showURL req := req.path

/-- `GET /api/v1/pods`, with a field selector. -/
def listPods (fieldSelector : String) : Request :=
  { path := "/api/v1/pods", query := AList.singleton "fieldSelector" [fieldSelector] }

theorem readPath_listPods (fieldSelector : String) :
    sample.readPath (listPods fieldSelector) = .ok
      { isResourceRequest := true, path := "/api/v1/pods", verb := "get", apiPrefix := "api",
        apiVersion := "v1", resource := "pods", parts := ["pods"] } := by
  have hsplit : splitPath "/api/v1/pods" = ["api", "v1", "pods"] := by decide
  simp [readPath, readVersion, readVerb, readNamespace, readParts, listPods, hsplit, sample,
    specialVerbs, methodVerb]
  rfl

/-- A list of the pods on a node is served as it should be. -/
theorem selectorNames_node : sample.SelectorNames (listPods "spec.nodeName=n1") := by
  have hpin : sample.pinnedName (listPods "spec.nodeName=n1") = none := by decide
  refine (selectorNames_iff parseEquality_nil (readPath_listPods _) rfl (.inl rfl)).2 ⟨?_, ?_⟩
  · intro x hx
    rw [hpin] at hx
    cases hx
  · intro _
    exact ⟨by decide, fun _ => .inr rfl⟩

/-- A list of the pods named `web` is not authorized as one for `web`, and one
    with a selector that does not parse crashes the parser. -/
theorem not_selectorNames_web : ¬ sample.SelectorNames (listPods "metadata.name=web") ∧
    sample.newRequestInfo (listPods "web") = .panicked := by
  refine ⟨fun h => ?_, by decide⟩
  obtain ⟨info, err, hret, hname⟩ := h.pinned "web" (by decide) (by decide)
  cases hret
  exact absurd hname (by decide)

end RequestInfoFactory

end Apiserver
