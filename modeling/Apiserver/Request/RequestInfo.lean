import Apiserver.Basic
import Apiserver.Go.Http
import Apiserver.Go.Strings

/-!
# What a request is for

The resource, the object and the verb of a request are read off its method and
the path of its URL (`pkg/request/requestinfo.go`):

    /<prefix>/[<group>/]<version>/[<verb>/][namespaces/<namespace>/]<resource>/<name>/<subresource>

Paths of any other form are non-resource requests. The parser goes through the
parts of the path from left to right; the model has a function for each stage.

* `newRequestInfo_of_resource`: the first parts of the path of a resource
  request are its prefix, its group if the prefix has groups, and its version.
-/

namespace Apiserver

open Go

/-- `RequestInfo`. -/
structure RequestInfo where
  isResourceRequest : Bool := false
  path : String := ""
  verb : String := ""
  apiPrefix : String := ""
  apiGroup : String := ""
  apiVersion : String := ""
  ns : String := ""
  resource : String := ""
  subresource : String := ""
  name : String := ""
  parts : List String := []
  deriving DecidableEq

def specialVerbs : List String := ["proxy", "watch"]
def specialVerbsNoSubresources : List String := ["proxy"]
def namespaceSubresources : List String := ["status", "finalize"]

/-- The fields of `api.ListOptions` that are read. -/
structure ListOptions where
  watch : Bool := false
  fieldSelector : String := ""

/-- `RequestInfoFactory`, and the functions it takes from outside the repository. -/
structure RequestInfoFactory where
  apiPrefixes : List String
  grouplessAPIPrefixes : List String
  /-- `DecodeParameters` of the parameter codec, into list options. -/
  decodeListOptions : Header → Except Error ListOptions
  /-- `fields.ParseSelector`: the selector, given by its `RequiresExactMatch`
      unless it is nil, and an error. -/
  parseSelector : String → Option (String → Option String) × Option Error
  /-- `path.IsValidPathSegmentName`: the complaints about a name. -/
  isValidPathSegmentName : String → List String
  /-- `String` of the URL of a request. -/
  showURL : Request → String

/-- What becomes of a call of `NewRequestInfo`. -/
inductive Parsed
  | returned (info : RequestInfo) (err : Option Error)
  /-- A method of a nil selector is called. -/
  | panicked
  deriving DecidableEq

/-- `splitPath`. -/
def splitPath (path : String) : List String :=
  let path := trim path '/'
  if path = "" then [] else split path '/'

namespace RequestInfoFactory

variable (f : RequestInfoFactory) (req : Request)

/-- The verb of a request by its method. -/
def methodVerb : String → String
  | "POST" => "create"
  | "GET" | "HEAD" => "get"
  | "PUT" => "update"
  | "PATCH" => "patch"
  | "DELETE" => "delete"
  | _ => ""

/-- The options of a list request. If they do not decode, `watch` is still read. -/
def listOptions : ListOptions :=
  match f.decodeListOptions req.query with
  | .ok opts => opts
  | .error _ => match req.query.index "watch" with
    | [] => {}
    | value :: _ =>
      if toLower value = "false" ∨ toLower value = "0" then {} else { watch := true }

/-- The end of `NewRequestInfo`: a request for no object in particular lists,
    watches or deletes a collection. -/
def refineVerb (info : RequestInfo) : Parsed :=
  if info.name = "" ∧ info.verb = "get" then
    let opts := f.listOptions req
    let info := { info with verb := if opts.watch then "watch" else "list" }
    if opts.fieldSelector ≠ "" then
      match f.parseSelector opts.fieldSelector with
      -- The source looks at the selector when there is an error, not when there is none.
      | (selector, some _) => match selector with
        | none => .panicked
        | some requiresExactMatch => match requiresExactMatch "metadata.name" with
          | none => .returned info none
          | some name =>
            if f.isValidPathSegmentName name = [] then .returned { info with name } none
            else .returned info none
      | (_, none) => .returned info none
    else .returned info none
  else if info.name = "" ∧ info.verb = "delete" then
    .returned { info with verb := "deletecollection" } none
  else .returned info none

/-- The resource, the name and the subresource, from the parts that are left. -/
def parseParts (info : RequestInfo) (parts : List String) : Parsed :=
  let info := { info with parts }
  f.refineVerb req <| match parts with
    | [] => info
    | [resource] => { info with resource }
    | [resource, name] => { info with resource, name }
    | resource :: name :: subresource :: _ =>
      if info.verb ∈ specialVerbsNoSubresources then { info with resource, name }
      else { info with resource, name, subresource }

/-- The namespace, from the parts beginning with `part`. -/
def parseNamespace (info : RequestInfo) (part : String) (rest : List String) : Parsed :=
  if part = "namespaces" then
    match rest with
    | [] => f.parseParts req info [part]
    | [ns] => f.parseParts req { info with ns } [part, ns]
    | ns :: resource :: rest =>
      if resource ∈ namespaceSubresources then
        f.parseParts req { info with ns } (part :: ns :: resource :: rest)
      else f.parseParts req { info with ns } (resource :: rest)
  else f.parseParts req { info with ns := "" } (part :: rest)

/-- The verb, from the parts after the version. -/
def parseVerb (info : RequestInfo) (part : String) (rest : List String) : Parsed :=
  if part ∈ specialVerbs then
    match rest with
    | [] => .returned info
      (some ("unable to determine kind and namespace from url, " ++ f.showURL req))
    | part' :: rest => f.parseNamespace req { info with verb := part } part' rest
  else f.parseNamespace req { info with verb := methodVerb req.method } part rest

/-- `NewRequestInfo`. -/
def newRequestInfo : Parsed :=
  let info : RequestInfo := { path := req.path, verb := toLower req.method }
  match splitPath req.path with
  | part₀ :: part₁ :: part₂ :: rest =>
    if part₀ ∉ f.apiPrefixes then .returned info none
    else
      let info := { info with apiPrefix := part₀ }
      if part₀ ∈ f.grouplessAPIPrefixes then
        f.parseVerb req { info with isResourceRequest := true, apiVersion := part₁ } part₂ rest
      else match rest with
        | [] => .returned info none
        | part₃ :: rest =>
          f.parseVerb req
            { info with apiGroup := part₁, isResourceRequest := true, apiVersion := part₂ }
            part₃ rest
  | _ => .returned info none

/-! ## The first parts of a path -/

variable {f req}

/-- The fields that are known once the version has been read. -/
structure Keeps (info info' : RequestInfo) : Prop where
  isResourceRequest : info'.isResourceRequest = info.isResourceRequest
  path : info'.path = info.path
  apiPrefix : info'.apiPrefix = info.apiPrefix
  apiGroup : info'.apiGroup = info.apiGroup
  apiVersion : info'.apiVersion = info.apiVersion

theorem Keeps.refl (info : RequestInfo) : Keeps info info := ⟨rfl, rfl, rfl, rfl, rfl⟩

/-- Setting any of the other fields first makes no difference. -/
theorem Keeps.congr {info₁ info₂ info' : RequestInfo} (h : Keeps info₂ info')
    (h' : Keeps info₁ info₂) : Keeps info₁ info' :=
  ⟨h.1.trans h'.1, h.2.trans h'.2, h.3.trans h'.3, h.4.trans h'.4, h.5.trans h'.5⟩

variable {info info' : RequestInfo} {err : Option Error}

/-- The last steps only refine the verb. -/
theorem refineVerb_keeps (h : f.refineVerb req info = .returned info' err) : Keeps info info' := by
  rw [refineVerb] at h
  dsimp only at h
  split at h
  · split at h
    · split at h
      · split at h
        · cases h
        · split at h
          · cases h
            exact ⟨rfl, rfl, rfl, rfl, rfl⟩
          · split at h <;> cases h <;> exact ⟨rfl, rfl, rfl, rfl, rfl⟩
      · cases h
        exact ⟨rfl, rfl, rfl, rfl, rfl⟩
    · cases h
      exact ⟨rfl, rfl, rfl, rfl, rfl⟩
  · split at h <;> cases h <;> exact ⟨rfl, rfl, rfl, rfl, rfl⟩

theorem parseParts_keeps {parts : List String}
    (h : f.parseParts req info parts = .returned info' err) : Keeps info info' := by
  rw [parseParts.eq_def] at h
  refine (refineVerb_keeps h).congr ?_
  split
  · exact ⟨rfl, rfl, rfl, rfl, rfl⟩
  · exact ⟨rfl, rfl, rfl, rfl, rfl⟩
  · exact ⟨rfl, rfl, rfl, rfl, rfl⟩
  · split <;> exact ⟨rfl, rfl, rfl, rfl, rfl⟩

/-- Reading the namespace keeps the fields that are known. -/
theorem parseNamespace_keeps {part : String} {rest : List String}
    (h : f.parseNamespace req info part rest = .returned info' err) :
    Keeps info info' := by
  rw [parseNamespace.eq_def] at h
  split at h
  · split at h
    · exact parseParts_keeps h
    · exact (parseParts_keeps h).congr ⟨rfl, rfl, rfl, rfl, rfl⟩
    · split at h <;> exact (parseParts_keeps h).congr ⟨rfl, rfl, rfl, rfl, rfl⟩
  · exact (parseParts_keeps h).congr ⟨rfl, rfl, rfl, rfl, rfl⟩

theorem parseVerb_keeps {part : String} {rest : List String}
    (h : f.parseVerb req info part rest = .returned info' err) :
    Keeps info info' := by
  rw [parseVerb.eq_def] at h
  split at h
  · split at h
    · cases h
      exact Keeps.refl _
    · exact (parseNamespace_keeps h).congr ⟨rfl, rfl, rfl, rfl, rfl⟩
  · exact (parseNamespace_keeps h).congr ⟨rfl, rfl, rfl, rfl, rfl⟩

/-- The first parts of the path of a resource request are its prefix, its group
    if the prefix has groups, and its version. -/
theorem newRequestInfo_of_resource {info : RequestInfo}
    (h : f.newRequestInfo req = .returned info err) (hr : info.isResourceRequest = true) :
    ∃ rest, splitPath req.path = info.apiPrefix ::
      (if info.apiPrefix ∈ f.grouplessAPIPrefixes then info.apiVersion :: rest
        else info.apiGroup :: info.apiVersion :: rest) := by
  -- Wherever the parser returns early, it has not marked a resource request.
  rw [newRequestInfo] at h
  dsimp only at h
  split at h
  case h_2 =>
    cases h
    cases hr
  case h_1 part₀ part₁ part₂ rest hpath =>
    split at h
    · cases h
      cases hr
    split at h
    case isTrue hless =>
      have hk := parseVerb_keeps h
      refine ⟨part₂ :: rest, ?_⟩
      rw [hpath, hk.apiPrefix, hk.apiVersion, if_pos hless]
    case isFalse hless =>
      split at h
      · cases h
        cases hr
      case h_2 part₃ rest =>
        have hk := parseVerb_keeps h
        refine ⟨part₃ :: rest, ?_⟩
        rw [hpath, hk.apiPrefix, hk.apiGroup, hk.apiVersion, if_neg hless]

end RequestInfoFactory

end Apiserver
