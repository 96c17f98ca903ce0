import Apiserver.Request.ReadPath

/-!
# Paths of resources

A path can be built from what it is for: a prefix, a group if the prefix has
groups, a version, a namespace, a resource, a name, a subresource and segments
nobody looks at (`ResourcePath`). The parser inverts this.

* `splitPath_path`: the parts of such a path are the segments it is built from;
* `newRequestInfo_path`: reading it gives what it was built from, as far as the
  path goes (`parsed`), and the query is looked at last;
* `newRequestInfo_inverts_iff`: so it is inverted exactly when the query has no
  field selector that does not parse; a path with too few parts or another
  prefix is never that of a resource.
-/

namespace Apiserver

open Go RequestInfoFactory

/-- A segment of a path. -/
structure Segment where
  text : String
  ne_empty : text ≠ ""
  slashFree : '/' ∉ text.toList

/-- What the path of a resource is built from. -/
structure ResourcePath (f : RequestInfoFactory) where
  apiPrefix : Segment
  apiPrefix_mem : apiPrefix.text ∈ f.apiPrefixes
  group : Option Segment
  group_isSome : group.isSome ↔ apiPrefix.text ∉ f.grouplessAPIPrefixes
  version : Segment
  ns : Option Segment
  resource : Segment
  resource_ne : resource.text ∉ ["proxy", "watch", "namespaces"]
  resource_ne_of_ns : ns.isSome → resource.text ∉ ["status", "finalize"]
  /-- The name, and then the subresource and any further segments. -/
  object : Option (Segment × Option (Segment × List Segment))

namespace ResourcePath

variable {f : RequestInfoFactory} (t : ResourcePath f)

def name : String := t.object.elim "" fun o => o.1.text

def subresource : String :=
  t.object.elim "" fun o => o.2.elim "" fun s => s.1.text

/-- The segment `namespaces`. -/
def namespaces : Segment := ⟨"namespaces", by decide, by decide⟩

/-- The segments after the resource. -/
def objectSegments : List Segment :=
  t.object.elim [] fun o => o.1 :: o.2.elim [] fun s => s.1 :: s.2

/-- The segments before the resource, after the version. -/
def namespaceSegments : List Segment := t.ns.elim [] fun ns => [namespaces, ns]

def segments : List Segment :=
  t.apiPrefix :: (t.group.toList ++
    t.version :: (t.namespaceSegments ++ t.resource :: t.objectSegments))

/-- The path. -/
def path : String := "/" ++ join (t.segments.map Segment.text) "/"

theorem segment_notMem_head? (s : Segment) : '/' ∉ s.text.toList.head? :=
  fun h => s.slashFree (List.mem_of_mem_head? h)

theorem segment_notMem_getLast? (s : Segment) : '/' ∉ s.text.toList.getLast? :=
  fun h => s.slashFree (List.mem_of_mem_getLast? h)

/-- The parts of a path are the segments it is built from. -/
theorem splitPath_join {l : List Segment} (hl : l ≠ []) :
    splitPath ("/" ++ join (l.map Segment.text) "/") = l.map Segment.text := by
  have hhead : '/' ∉ (join (l.map Segment.text) "/").toList.head? := by
    cases l with
    | nil => exact absurd rfl hl
    | cons s l =>
      rw [List.map_cons, head?_toList_join _ s.ne_empty]
      exact segment_notMem_head? s
  have hlast : '/' ∉ (join (l.map Segment.text) "/").toList.getLast? := by
    obtain ⟨l', s, rfl⟩ := (List.eq_nil_or_concat' l).resolve_left hl
    rw [List.map_append, List.map_singleton, getLast?_toList_join _ s.ne_empty]
    exact segment_notMem_getLast? s
  have htrim : trim ("/" ++ join (l.map Segment.text) "/") '/' =
      join (l.map Segment.text) "/" := trim_singleton_append hhead hlast
  have hsplit : split (join (l.map Segment.text) "/") '/' = l.map Segment.text := by
    refine split_join (fun h => hl (List.map_eq_nil_iff.1 h)) ?_
    intro s hs
    obtain ⟨s, -, rfl⟩ := List.mem_map.1 hs
    exact s.slashFree
  rw [splitPath, htrim, if_neg, hsplit]
  intro hempty
  rw [hempty] at hsplit
  -- The empty path has one part, the empty one.
  cases l with
  | nil => exact absurd rfl hl
  | cons s l => exact s.ne_empty (List.cons.inj hsplit).1.symm

theorem splitPath_path : splitPath t.path = t.segments.map Segment.text :=
  splitPath_join (List.cons_ne_nil _ _)

/-- What the path and the method of a request say. -/
def parsed (req : Request) : RequestInfo where
  isResourceRequest := true
  path := req.path
  verb := methodVerb req.method
  apiPrefix := t.apiPrefix.text
  apiGroup := t.group.elim "" Segment.text
  apiVersion := t.version.text
  ns := t.ns.elim "" Segment.text
  resource := t.resource.text
  subresource := t.subresource
  name := t.name
  parts := t.resource.text :: t.objectSegments.map Segment.text

theorem methodVerb_ne_proxy (method : String) :
    methodVerb method ∉ specialVerbsNoSubresources := by
  rw [methodVerb.eq_def]
  split <;> decide

/-- The segments of an object are read back. -/
theorem parseParts_object (req : Request) (info : RequestInfo)
    (hverb : info.verb = methodVerb req.method) (hname : info.name = "")
    (hsub : info.subresource = "") :
    f.parseParts req info (t.resource.text :: t.objectSegments.map Segment.text) =
      f.refineVerb req { info with
        resource := t.resource.text, name := t.name, subresource := t.subresource,
        parts := t.resource.text :: t.objectSegments.map Segment.text } := by
  have hproxy : info.verb ∉ specialVerbsNoSubresources := by
    rw [hverb]
    exact methodVerb_ne_proxy req.method
  rw [objectSegments, name, subresource]
  match t.object with
  | none => simp [parseParts, hname, hsub]
  | some (name, none) => simp [parseParts, hsub]
  | some (name, some (subresource, further)) => simp [parseParts, hproxy]

/-- After the version, the verb is that of the method. -/
theorem parseVerb_namespace (req : Request) (info : RequestInfo)
    (hname : info.name = "") (hsub : info.subresource = "") {part : String} {rest : List String}
    (hparts : part :: rest =
      (t.namespaceSegments ++ t.resource :: t.objectSegments).map Segment.text) :
    f.parseVerb req info part rest = f.refineVerb req { info with
      verb := methodVerb req.method, ns := t.ns.elim "" Segment.text,
      resource := t.resource.text, name := t.name, subresource := t.subresource,
      parts := t.resource.text :: t.objectSegments.map Segment.text } := by
  have hres := t.resource_ne
  simp only [List.mem_cons, List.not_mem_nil, or_false, not_or] at hres
  rw [namespaceSegments] at hparts
  cases hns' : t.ns with
  | none =>
    -- The resource comes first, and must not read as a verb or as `namespaces`.
    rw [hns', Option.elim_none, List.nil_append, List.map_cons, List.cons.injEq] at hparts
    obtain ⟨rfl, rfl⟩ := hparts
    have hspecial : t.resource.text ∉ specialVerbs := by
      simp [specialVerbs, hres.1, hres.2.1]
    rw [parseVerb.eq_def, if_neg hspecial, parseNamespace.eq_def, if_neg hres.2.2]
    exact t.parseParts_object req { info with verb := methodVerb req.method, ns := "" }
      rfl hname hsub
  | some ns =>
    -- The resource comes third, and must not read as a subresource of the namespace.
    have hstatus := t.resource_ne_of_ns (by rw [hns']; rfl)
    rw [hns'] at hparts
    simp only [Option.elim_some, List.cons_append, List.nil_append, List.map_cons,
      List.cons.injEq] at hparts
    obtain ⟨rfl, rfl⟩ := hparts
    have hspecial : namespaces.text ∉ specialVerbs := by decide
    rw [parseVerb.eq_def, if_neg hspecial, parseNamespace.eq_def,
      if_pos (show namespaces.text = "namespaces" from rfl)]
    dsimp only
    rw [if_neg (show t.resource.text ∉ namespaceSubresources from hstatus)]
    exact t.parseParts_object req { info with verb := methodVerb req.method, ns := ns.text }
      rfl hname hsub

/-- Reading the path gives what it was built from. -/
theorem newRequestInfo_path {req : Request} (hpath : req.path = t.path) :
    f.newRequestInfo req = f.refineVerb req (t.parsed req) := by
  have hsplit : splitPath req.path = t.segments.map Segment.text := by
    rw [hpath, t.splitPath_path]
  -- There is a part after the version.
  obtain ⟨part, rest, hparts⟩ : ∃ part rest, part :: rest =
      (t.namespaceSegments ++ t.resource :: t.objectSegments).map Segment.text := by
    cases h : (t.namespaceSegments ++ t.resource :: t.objectSegments).map Segment.text with
    | nil => simp at h
    | cons part rest => exact ⟨part, rest, rfl⟩
  have hgroup := t.group_isSome
  rw [segments, List.map_cons, List.map_append, List.map_cons, ← hparts] at hsplit
  cases hg : t.group with
  | none =>
    have hless : t.apiPrefix.text ∈ f.grouplessAPIPrefixes := by
      rw [hg] at hgroup
      simpa using hgroup
    rw [hg] at hsplit
    change splitPath req.path = t.apiPrefix.text :: t.version.text :: part :: rest at hsplit
    rw [newRequestInfo, hsplit]
    dsimp only
    rw [if_neg (not_not.2 t.apiPrefix_mem), if_pos hless,
      t.parseVerb_namespace req _ rfl rfl hparts, parsed, hg]
    rfl
  | some group =>
    have hless : t.apiPrefix.text ∉ f.grouplessAPIPrefixes := by
      rw [hg] at hgroup
      exact hgroup.1 rfl
    rw [hg] at hsplit
    change splitPath req.path =
      t.apiPrefix.text :: group.text :: t.version.text :: part :: rest at hsplit
    rw [newRequestInfo, hsplit]
    dsimp only
    rw [if_neg (not_not.2 t.apiPrefix_mem), if_neg hless,
      t.parseVerb_namespace req _ rfl rfl hparts, parsed, hg]
    rfl

/-! ## What becomes of it -/

/-- The verb a method is documented to have, on a name or on none. -/
def documentedVerb (named watch : Bool) : String → String
  | "POST" => "create"
  | "PUT" => "update"
  | "PATCH" => "patch"
  | "GET" | "HEAD" => if named then "get" else if watch then "watch" else "list"
  | "DELETE" => if named then "delete" else "deletecollection"
  | _ => ""

/-- The request for the path is read as one for what the path was built from. -/
structure ReadAs (req : Request) (info : RequestInfo) : Prop where
  isResourceRequest : info.isResourceRequest = true
  apiPrefix : info.apiPrefix = t.apiPrefix.text
  apiGroup : info.apiGroup = t.group.elim "" Segment.text
  apiVersion : info.apiVersion = t.version.text
  ns : info.ns = t.ns.elim "" Segment.text
  resource : info.resource = t.resource.text
  name : info.name = t.name
  subresource : info.subresource = t.subresource
  verb : info.verb = documentedVerb t.object.isSome (f.listOptions req).watch req.method

/-- The parser inverts the path. -/
def Inverted (req : Request) : Prop :=
  ∃ info, f.newRequestInfo req = .returned info none ∧ t.ReadAs req info

variable {t}

theorem documentedVerb_eq (named watch : Bool) (method : String) :
    documentedVerb named watch method =
      if named = false ∧ methodVerb method = "get" then if watch then "watch" else "list"
      else if named = false ∧ methodVerb method = "delete" then "deletecollection"
      else methodVerb method := by
  rw [documentedVerb.eq_def]
  cases named <;> split <;> simp_all [methodVerb]

theorem methodVerb_eq_get_iff {method : String} :
    methodVerb method = "get" ↔ method = "GET" ∨ method = "HEAD" := by
  rw [methodVerb.eq_def]
  split <;> simp_all

theorem name_eq_empty_iff : t.name = "" ↔ t.object.isSome = false := by
  rw [name]
  cases t.object with
  | none => simp
  | some o => simp [o.1.ne_empty]

theorem readAs_parsed {req : Request} {verb : String}
    (hverb : verb = documentedVerb t.object.isSome (f.listOptions req).watch req.method) :
    t.ReadAs req { t.parsed req with verb } :=
  ⟨rfl, rfl, rfl, rfl, rfl, rfl, rfl, rfl, hverb⟩

/-- Any request but a get of no name is read as it should be. -/
theorem inverted_of_not_get {req : Request} (hpath : req.path = t.path)
    (h : ¬ (t.object.isSome = false ∧ methodVerb req.method = "get")) : t.Inverted req := by
  have hverb := documentedVerb_eq t.object.isSome (f.listOptions req).watch req.method
  have hget : ¬ ((t.parsed req).name = "" ∧ (t.parsed req).verb = "get") :=
    fun h' => h ⟨name_eq_empty_iff.1 h'.1, h'.2⟩
  rw [if_neg h] at hverb
  rw [Inverted, t.newRequestInfo_path hpath, refineVerb, if_neg hget]
  by_cases hdelete : t.object.isSome = false ∧ methodVerb req.method = "delete"
  · rw [if_pos hdelete] at hverb
    rw [if_pos ⟨name_eq_empty_iff.2 hdelete.1, hdelete.2⟩]
    exact ⟨_, rfl, readAs_parsed hverb.symm⟩
  · rw [if_neg hdelete] at hverb
    rw [if_neg fun h' => hdelete ⟨name_eq_empty_iff.1 h'.1, h'.2⟩]
    exact ⟨t.parsed req, rfl, readAs_parsed hverb.symm⟩

variable (f) in
/-- The field selector of the options, if it is set, parses; or what is acted
    upon when it does not is a selector that names nothing. -/
def SelectorHarmless (req : Request) : Prop :=
  f.SelectorParses req ∨
    ∃ requiresExactMatch,
      (f.parseSelector (f.listOptions req).fieldSelector).1 = some requiresExactMatch ∧
      ∀ x, requiresExactMatch "metadata.name" = some x → f.isValidPathSegmentName x = [] → x = ""

theorem selectedName_eq_empty_iff {requiresExactMatch : String → Option String} :
    f.selectedName requiresExactMatch = "" ↔ ∀ x, requiresExactMatch "metadata.name" = some x →
      f.isValidPathSegmentName x = [] → x = "" := by
  rw [selectedName]
  cases requiresExactMatch "metadata.name" with
  | none => simp
  | some name => by_cases hvalid : f.isValidPathSegmentName name = [] <;> simp [hvalid]

/-- A get of no name is read as it should be exactly when its field selector,
    if it is set, parses or names nothing. -/
theorem inverted_iff_of_get {req : Request} (hpath : req.path = t.path)
    (hname : t.object.isSome = false) (hmethod : methodVerb req.method = "get") :
    t.Inverted req ↔ SelectorHarmless f req := by
  have hverb := documentedVerb_eq t.object.isSome (f.listOptions req).watch req.method
  rw [if_pos ⟨hname, hmethod⟩] at hverb
  have hempty : (t.parsed req).name = "" := name_eq_empty_iff.2 hname
  rw [Inverted, t.newRequestInfo_path hpath, SelectorHarmless]
  by_cases hparse : f.SelectorParses req
  · rw [refineVerb_of_parses hempty hmethod hparse]
    exact iff_of_true ⟨_, rfl, readAs_parsed hverb.symm⟩ (.inl hparse)
  rw [refineVerb_of_not_parses hempty hmethod hparse]
  cases (f.parseSelector (f.listOptions req).fieldSelector).1 with
  | none =>
    refine iff_of_false ?_ (by simp [hparse])
    rintro ⟨info, h, -⟩
    cases h
  | some requiresExactMatch =>
    simp only [hparse, false_or, Option.some.injEq, exists_eq_left', ← selectedName_eq_empty_iff]
    constructor
    · rintro ⟨info, h, hread⟩
      cases h
      exact hread.name.trans hempty
    · intro h
      -- A selector that names nothing leaves the name empty, as it is in the path.
      rw [h, ← hempty]
      exact ⟨_, rfl, readAs_parsed hverb.symm⟩

end ResourcePath

namespace RequestInfoFactory

variable (f : RequestInfoFactory)

/-- A path has too few parts to be that of a resource, or another prefix. -/
def NotResource (parts : List String) : Prop :=
  ∀ part₀ rest, parts = part₀ :: rest → part₀ ∈ f.apiPrefixes →
    parts.length < if part₀ ∈ f.grouplessAPIPrefixes then 3 else 4

/-- Other paths are not taken for resources. -/
theorem newRequestInfo_of_notResource {f : RequestInfoFactory} {req : Request}
    (h : f.NotResource (splitPath req.path)) :
    ∃ info, f.newRequestInfo req = .returned info none ∧ info.isResourceRequest = false := by
  rw [newRequestInfo]
  dsimp only
  split
  case h_2 => exact ⟨_, rfl, rfl⟩
  case h_1 part₀ part₁ part₂ rest hpath =>
    rw [hpath] at h
    split
    · exact ⟨_, rfl, rfl⟩
    case isFalse hmem =>
      have hlen := h part₀ _ rfl (not_not.1 hmem)
      split
      case isTrue hless =>
        rw [if_pos hless] at hlen
        simp +arith at hlen
      case isFalse hless =>
        rw [if_neg hless] at hlen
        cases rest with
        | nil => exact ⟨_, rfl, rfl⟩
        | cons part₃ rest => simp +arith at hlen

/-- The parser inverts the path of a resource unless it is a get of no name with
    a field selector that does not parse. It never takes a part that is not
    there, and does not take any other path for that of a resource. -/
theorem newRequestInfo_inverts_iff :
    (∀ (t : ResourcePath f) (req : Request), req.path = t.path →
      (t.Inverted req ↔
        (t.object = none → req.method = "GET" ∨ req.method = "HEAD" →
          ResourcePath.SelectorHarmless f req))) ∧
    ∀ req : Request,
      (f.newRequestInfo req = f.finish req (f.readPath req) ∧
        f.readPath req ≠ .error .outOfRange) ∧
      (f.NotResource (splitPath req.path) →
        ∃ info, f.newRequestInfo req = .returned info none ∧ info.isResourceRequest = false) := by
  refine ⟨fun t req hpath => ?_, fun req => ⟨⟨newRequestInfo_eq, readPath_inRange f req⟩,
    newRequestInfo_of_notResource⟩⟩
  by_cases hget : t.object.isSome = false ∧ methodVerb req.method = "get"
  · have hnone : t.object = none := by simpa using hget.1
    rw [ResourcePath.inverted_iff_of_get hpath hget.1 hget.2]
    exact ⟨fun h _ _ => h, fun h => h hnone (ResourcePath.methodVerb_eq_get_iff.1 hget.2)⟩
  · refine iff_of_true (ResourcePath.inverted_of_not_get hpath hget) fun hnone hmethod => ?_
    exact absurd ⟨by rw [hnone]; rfl, ResourcePath.methodVerb_eq_get_iff.2 hmethod⟩ hget

/-- The pods of no namespace in particular. -/
def podsPath : ResourcePath sample where
  apiPrefix := ⟨"api", by decide, by decide⟩
  apiPrefix_mem := by decide
  group := none
  group_isSome := by decide
  version := ⟨"v1", by decide, by decide⟩
  ns := none
  resource := ⟨"pods", by decide, by decide⟩
  resource_ne := by decide
  resource_ne_of_ns := by decide
  object := none

theorem podsPath_inverted : podsPath.Inverted (listPods "spec.nodeName=n1") :=
  ((newRequestInfo_inverts_iff sample).1 podsPath (listPods "spec.nodeName=n1") (by decide)).2
    fun _ _ => .inl (.inr (by decide))

/-- A field selector that does not parse crashes the parser. -/
theorem podsPath_not_inverted :
    (listPods "web").path = podsPath.path ∧ ¬ podsPath.Inverted (listPods "web") := by
  refine ⟨by decide, ?_⟩
  rintro ⟨info, h, -⟩
  have hpanic : sample.newRequestInfo (listPods "web") = .panicked := by decide
  rw [hpanic] at h
  cases h

end RequestInfoFactory

end Apiserver
