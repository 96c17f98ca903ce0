import Apiserver.Audit.Policy
import Apiserver.Go.Http

/-!
# Audit events

The record of a request (`pkg/audit/request.go`). It is made from the attributes
of the request when that is received (`newEventFromRequest`); whoever handles
the request then fills in what it was about (`Event.logRequestObject`) and what
came of it. Backends with a policy of their own read the attributes back from
the record (`newAttributes`, `pkg/audit/event/attributes.go`).

The part of an event the attributes are read from is its `subject`.

* `subject_newEventFromRequest`, `subject_logRequestObject`: the subject of a
  new event, and what logging the object of the request makes of it;
  everything else that is logged leaves the subject as it is;
* `Policy.levelAndStages_congr`: a policy decides alike on attributes that are
  `Alike`;
* `alike_newAttributes`: those read back from an event are like the ones its
  subject was made from.
-/

namespace Apiserver.Audit

open Go

/-- `ordLevel`. -/
def ordLevel : Level → ℕ
  | .metadata => 1
  | .request => 2
  | .requestResponse => 3
  | .none => 0

/-- `Less` of levels. -/
def Level.less (l l' : Level) : Bool := ordLevel l < ordLevel l'

theorem Level.less_metadata {l : Level} : l.less .metadata = true ↔ l = .none := by
  cases l <;> decide

/-- `ObjectReference`, short of the fields that are never set. -/
structure ObjectReference where
  resource : String := ""
  ns : String := ""
  name : String := ""
  apiGroup : String := ""
  apiVersion : String := ""
  subresource : String := ""
  deriving DecidableEq

/-- `api.Status`. -/
structure Status where
  status : String := ""
  message : String := ""
  reason : String := ""
  code : ℤ := 0
  deriving DecidableEq

/-- `Event`. The source leaves the stage empty at first; the filters set it
    before the event is given to a sink. -/
structure Event where
  level : Level
  auditID : String := ""
  stage : Stage := .requestReceived
  requestURI : String := ""
  verb : String := ""
  user : UserInfo := { name := "" }
  impersonatedUser : Option UserInfo := none
  objectRef : Option ObjectReference := none
  responseStatus : Option Status := none
  requestObject : Option (List UInt8) := none
  responseObject : Option (List UInt8) := none
  annotations : AList fun _ : String => String := ∅
  deriving DecidableEq

/-- What is taken from outside for the objects in an event, of an arbitrary type `V`. -/
structure Encoding (V : Type) where
  /-- `json.Marshal`; the object may be nil. -/
  marshal : Option V → Except Error (List UInt8)
  /-- The type assertion `obj.(*api.Status)`. -/
  asStatus : V → Option Status

/-! ## Filling in an event -/

namespace Event

/-- `LogAnnotation`: the entry for a key is set once. -/
def logAnnotationEntry (ev : Event) (key value : String) : Event :=
  if ev.level.less .metadata then ev
  else if (ev.annotations.lookup key).any (· ≠ value) then ev
  else { ev with annotations := ev.annotations.insert key value }

/-- `LogImpersonatedUser`. -/
def logImpersonatedUser (ev : Event) (user : UserInfo) : Event :=
  if ev.level.less .metadata then ev else { ev with impersonatedUser := some user }

variable {V : Type} (e : Encoding V)

/-- `encodeObject`; the object is nil if there is an error. -/
def encodeObject (obj : Option V) : Option (List UInt8) := (e.marshal obj).toOption

/-- `reflect.TypeOf(reflect.Indirect(reflect.ValueOf(obj))).Name()`: the type of
    what `reflect.Indirect` returns is `reflect.Value`, whatever the object is. -/
def typeName (_obj : Option V) : String := "Value"

/-- What `LogRequestObject` makes of a reference. -/
def completeRef (ref : Option ObjectReference) (obj : Option V) (subresource : String) :
    ObjectReference :=
  let ref := ref.getD {}
  { ref with
    name := if ref.name.isEmpty then typeName obj else ref.name
    subresource := if ref.subresource.isEmpty then subresource else ref.subresource }

/-- `LogRequestObject`. -/
def logRequestObject (ev : Event) (obj : Option V) (subresource : String) : Event :=
  if ev.level.less .metadata then ev
  else
    let ev := { ev with objectRef := some (completeRef ev.objectRef obj subresource) }
    if ev.level.less .request then ev else { ev with requestObject := encodeObject e obj }

/-- `LogResponseObject`. -/
def logResponseObject (ev : Event) (obj : Option V) : Event :=
  if ev.level.less .metadata then ev
  else
    let ev := match obj.bind e.asStatus with
      -- The message, which has no bound, is not copied.
      | some status => { ev with responseStatus := some { status with message := "" } }
      | none => ev
    if ev.level.less .requestResponse then ev
    else { ev with responseObject := encodeObject e obj }

end Event

/-! ## A new event -/

/-- The reference to the object of a request for a resource. -/
def objectRefOf (a : Attributes) : Option ObjectReference :=
  if a.resourceRequest then some
    { ns := a.ns
      name := a.name
      resource := a.resource
      subresource := a.subresource
      apiGroup := a.apiGroup
      apiVersion := a.apiVersion }
  else none

/-- `NewEventFromRequest`, for a request with a header and a `RequestURI`, with
    the annotations in its context. An id is made up if the header has none. -/
def newEventFromRequest (header : Header) (requestURI newID : String)
    (annotations : List (String × String)) (level : Level) (a : Attributes) : Event :=
  let ids := header.get "Audit-ID"
  let ev : Event :=
    { verb := a.verb
      requestURI
      level
      auditID := if ids ≠ "" then ids else newID
      user := a.user.getD { name := "" }
      objectRef := objectRefOf a }
  annotations.foldl (fun ev kv => ev.logAnnotationEntry kv.1 kv.2) ev

/-! ## Reading the attributes back -/

/-- `NewAttributes`, and the attributes its methods return. -/
def newAttributes (parseRequestURI : String → Except Error String) (ev : Event) :
    Except Error Attributes :=
  match ev.objectRef with
  | none => match parseRequestURI ev.requestURI with
    | .error err => .error ("could not parse url: " ++ err)
    | .ok path => .ok { user := some ev.user, verb := ev.verb, path }
  | some ref => .ok
    { user := some ev.user
      verb := ev.verb
      ns := ref.ns
      resource := ref.resource
      subresource := ref.subresource
      name := ref.name
      apiGroup := ref.apiGroup
      apiVersion := ref.apiVersion
      resourceRequest := true }

/-! ## The subject of an event -/

/-- The fields of an event that the attributes are read from. -/
structure Subject where
  level : Level
  requestURI : String
  verb : String
  user : UserInfo
  objectRef : Option ObjectReference

/-- The subject of an event. -/
def Event.subject (ev : Event) : Subject :=
  { level := ev.level
    requestURI := ev.requestURI
    verb := ev.verb
    user := ev.user
    objectRef := ev.objectRef }

namespace Event

variable {V : Type} (e : Encoding V) (ev : Event)

@[simp] theorem subject_logAnnotationEntry (key value : String) :
    (ev.logAnnotationEntry key value).subject = ev.subject := by
  rw [logAnnotationEntry]
  split_ifs <;> rfl

@[simp] theorem responseStatus_logAnnotationEntry (key value : String) :
    (ev.logAnnotationEntry key value).responseStatus = ev.responseStatus := by
  rw [logAnnotationEntry]
  split_ifs <;> rfl

@[simp] theorem subject_logImpersonatedUser (user : UserInfo) :
    (ev.logImpersonatedUser user).subject = ev.subject := by
  rw [logImpersonatedUser]
  split_ifs <;> rfl

@[simp] theorem subject_logResponseObject (obj : Option V) :
    (ev.logResponseObject e obj).subject = ev.subject := by
  rw [logResponseObject]
  cases obj.bind e.asStatus <;> dsimp only <;> split_ifs <;> rfl

/-- Logging the object of a request completes the reference, or makes one. -/
theorem subject_logRequestObject (obj : Option V) (subresource : String)
    (hlevel : ev.level ≠ .none) :
    (ev.logRequestObject e obj subresource).subject =
      { ev.subject with objectRef := some (completeRef ev.objectRef obj subresource) } := by
  have hless : ¬ ev.level.less .metadata = true := mt Level.less_metadata.1 hlevel
  rw [logRequestObject, if_neg hless]
  dsimp only
  split_ifs <;> rfl

end Event

/-- The subject of the event of a request with attributes `a`. -/
def subjectOf (requestURI : String) (level : Level) (a : Attributes) : Subject :=
  { level
    requestURI
    verb := a.verb
    user := a.user.getD { name := "" }
    objectRef := objectRefOf a }

/-- What no annotation changes is the same before and after a list of them. -/
theorem foldl_logAnnotationEntry {α : Type} {f : Event → α}
    (hf : ∀ ev key value, f (ev.logAnnotationEntry key value) = f ev)
    (annotations : List (String × String)) (ev : Event) :
    f (annotations.foldl (fun ev kv => ev.logAnnotationEntry kv.1 kv.2) ev) = f ev := by
  induction annotations generalizing ev with
  | nil => rfl
  | cons kv l ih => rw [List.foldl_cons, ih, hf]

section

variable (header : Header) (requestURI newID : String) (annotations : List (String × String))
  (level : Level) (a : Attributes)

theorem subject_newEventFromRequest :
    (newEventFromRequest header requestURI newID annotations level a).subject =
      subjectOf requestURI level a := by
  rw [newEventFromRequest, foldl_logAnnotationEntry Event.subject_logAnnotationEntry]
  rfl

/-- A new event says nothing about a response yet. -/
theorem responseStatus_newEventFromRequest :
    (newEventFromRequest header requestURI newID annotations level a).responseStatus = none := by
  rw [newEventFromRequest, foldl_logAnnotationEntry Event.responseStatus_logAnnotationEntry]

end

/-! ## What a policy reads -/

/-- Attributes a policy cannot tell apart: of a request for a resource it reads
    what the resource is, of any other the path. -/
def Alike (a b : Attributes) : Prop :=
  a.user = b.user ∧ a.verb = b.verb ∧ a.resourceRequest = b.resourceRequest ∧
    (a.resourceRequest = true → a.ns = b.ns ∧ a.apiGroup = b.apiGroup ∧
      a.resource = b.resource ∧ a.subresource = b.subresource ∧ a.name = b.name) ∧
    (a.resourceRequest = false → a.path = b.path)

variable {a b : Attributes}

/-- A rule cannot tell attributes that are alike. -/
theorem ruleMatches_congr (h : Alike a b) (r : PolicyRule) :
    ruleMatches r a = ruleMatches r b := by
  obtain ⟨huser, hverb, hkind, hresource, hpath⟩ := h
  have hu : ruleMatchesUser r a = ruleMatchesUser r b := by rw [ruleMatchesUser, huser]; rfl
  have hv : ruleMatchesVerb r a = ruleMatchesVerb r b := by rw [ruleMatchesVerb, hverb]; rfl
  have hn : ruleMatchesNonResource r a = ruleMatchesNonResource r b := by
    rw [ruleMatchesNonResource, ruleMatchesNonResource, ← hkind]
    cases hreq : a.resourceRequest with
    | true => rfl
    | false => rw [hpath hreq]
  have hr : ruleMatchesResource r a = ruleMatchesResource r b := by
    rw [ruleMatchesResource, ruleMatchesResource, ← hkind]
    cases hreq : a.resourceRequest with
    | true =>
      obtain ⟨hns, hgroup, hres, hsub, hname⟩ := hresource hreq
      have hm : resourceMatches a = resourceMatches b := by
        funext res
        rw [resourceMatches, hres, hsub]
        rfl
      have he : entryMatches a = entryMatches b := by
        funext gr
        rw [entryMatches, hname, hm]
        rfl
      have hs : ruleMatchesNamespace r a = ruleMatchesNamespace r b := by
        rw [ruleMatchesNamespace, hns]
        rfl
      rw [hs, he, hgroup]
    | false => rfl
  rw [ruleMatches, ruleMatches, hu, hv, hr, hn]

theorem Policy.levelAndStages_congr (p : Policy) (h : Alike a b) :
    p.levelAndStages a = p.levelAndStages b := by
  simp only [Policy.levelAndStages, ruleMatches_congr h]

/-- The attributes read back from an event are like those its subject was made
    from, if these name a user and the path can be read back from the URI. -/
theorem alike_newAttributes {parseRequestURI : String → Except Error String} {ev : Event}
    {requestURI : String} {level : Level} (huser : a.user.isSome = true)
    (hpath : parseRequestURI requestURI = .ok a.path)
    (hev : ev.subject = subjectOf requestURI level a) :
    ∃ b, newAttributes parseRequestURI ev = .ok b ∧ Alike b a := by
  obtain ⟨user, huser⟩ := Option.isSome_iff_exists.1 huser
  simp only [Event.subject, subjectOf, Subject.mk.injEq, huser, Option.getD_some] at hev
  obtain ⟨-, hURI, hverb, hname, href⟩ := hev
  rw [newAttributes, href, objectRefOf]
  cases hreq : a.resourceRequest with
  | true => exact ⟨_, rfl, by simp [hname, huser], hverb, hreq.symm, by simp, by simp⟩
  | false =>
    simp only [Bool.false_eq_true, if_false, hURI, hpath]
    exact ⟨_, rfl, by simp [hname, huser], hverb, hreq.symm, by simp, by simp⟩

end Apiserver.Audit
