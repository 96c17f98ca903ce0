import Apiserver.Server.Mux

/-!
# The director

The director (`pkg/server/handler.go`) is behind the filters of the server. It
sends a request to the go-restful container if one of the registered web
services claims its path, and to the mux otherwise. A web service claims the
paths under its root. The root is tested as a prefix, and the next character of
the path has to be a slash; only `/apis` is tested as a whole.

* `claims_iff`: the paths a web service claims;
* `serveHTTP_iff`: these are the paths whose segments start with the ones of its
  root exactly if no root that ends in a slash is missed: there, the slash is
  looked for after the one of the root.
-/

namespace Apiserver.Server

open Go

/-- Where a request is sent. -/
inductive Target (H : Type)
  | goRestfulContainer
  | nonGoRestfulMux (handler : H)
  deriving DecidableEq

/-- `director`: the root paths of the registered web services, and the mux. -/
structure Director (H : Type) where
  webServices : List String
  nonGoRestfulMux : PathRecorderMux H

/-- The test of a web service, in the loop of the director. -/
def claims (path rootPath : String) : Bool :=
  if rootPath = "/apis" then path = "/apis" || path = "/apis/"
  else if hasPrefix path rootPath then
    path.toList.length = rootPath.toList.length ||
      path.toList[rootPath.toList.length]? = some '/'
  else false

variable {H : Type}

/-- `ServeHTTP` of the director. -/
def Director.serveHTTP (d : Director H) (path : String) : Target H :=
  if d.webServices.any (claims path) then .goRestfulContainer
  else .nonGoRestfulMux (d.nonGoRestfulMux.mux.serveHTTP path)

/-! ## Paths under a root -/

/-- A path is the root, or goes on with a slash after it. -/
def Extends (path rootPath : String) : Prop := path = rootPath ∨ hasPrefix path (rootPath ++ "/")

/-- A root is a prefix of a path, segment by segment; a slash at its end does not
    matter. -/
def SegmentPrefix (path rootPath : String) : Prop :=
  path = rootPath ∨ hasPrefix path (trimSuffix rootPath "/" ++ "/")

/-- A web service is to claim the paths under its root, the one of `/apis` only
    the root. -/
def ToClaim (path rootPath : String) : Prop :=
  (rootPath = "/apis" ∧ (path = "/apis" ∨ path = "/apis/")) ∨
    (rootPath ≠ "/apis" ∧ SegmentPrefix path rootPath)

theorem eq_slash_append_of_head {t : String} (h : t.toList[0]? = some '/') :
    ∃ u, t = "/" ++ u := by
  cases ht : t.toList with
  | nil => simp [ht] at h
  | cons c l =>
    obtain rfl : c = '/' := by simpa [ht] using h
    refine ⟨String.ofList l, ?_⟩
    rw [← String.toList_inj]
    simp [ht]

variable {path rootPath : String}

/-- The test of the next character, which is one past the slash of a root that
    ends in one. -/
theorem boundary_iff :
    (hasPrefix path rootPath = true ∧ (path.toList.length = rootPath.toList.length ∨
      path.toList[rootPath.toList.length]? = some '/')) ↔ Extends path rootPath := by
  constructor
  · rintro ⟨hp, hnext⟩
    obtain ⟨t, rfl⟩ := hasPrefix_iff.1 hp
    rw [String.toList_append, List.length_append, List.getElem?_append_right le_rfl,
      Nat.sub_self] at hnext
    rcases hnext with hlen | hslash
    · left
      have : t = "" := by
        rw [← String.toList_inj]
        exact List.eq_nil_of_length_eq_zero (by omega)
      rw [this, String.append_empty]
    · obtain ⟨u, rfl⟩ := eq_slash_append_of_head hslash
      right
      rw [← String.append_assoc]
      exact hasPrefix_append _ _
  · rintro (rfl | hp)
    · exact ⟨hasPrefix_iff.2 ⟨"", String.append_empty.symm⟩, .inl rfl⟩
    · obtain ⟨u, rfl⟩ := hasPrefix_iff.1 hp
      rw [String.append_assoc]
      refine ⟨hasPrefix_append _ _, .inr ?_⟩
      simp

/-- The paths a web service claims. -/
theorem claims_iff : claims path rootPath = true ↔
    (rootPath = "/apis" ∧ (path = "/apis" ∨ path = "/apis/")) ∨
      (rootPath ≠ "/apis" ∧ Extends path rootPath) := by
  rw [claims, ← boundary_iff]
  by_cases hapis : rootPath = "/apis"
  · simp [hapis]
  · by_cases hp : hasPrefix path rootPath = true
    · simp [hapis, hp]
    · simp [hapis, hp]

/-- A root that does not end in a slash. -/
theorem segmentPrefix_of_not_slash (h : hasSuffix rootPath "/" = false) :
    SegmentPrefix path rootPath ↔ Extends path rootPath := by
  rw [SegmentPrefix, Extends, trimSuffix, if_neg (by simp [h])]

/-- A root that ends in a slash. -/
theorem segmentPrefix_of_slash (h : hasSuffix rootPath "/" = true) :
    SegmentPrefix path rootPath ↔ hasPrefix path rootPath = true := by
  obtain ⟨r, rfl⟩ := hasSuffix_iff.1 h
  rw [SegmentPrefix, trimSuffix_append]
  refine or_iff_right_of_imp ?_
  rintro rfl
  exact hasPrefix_iff.2 ⟨"", String.append_empty.symm⟩

theorem Extends.segmentPrefix (h : Extends path rootPath) :
    SegmentPrefix path rootPath := by
  by_cases hslash : hasSuffix rootPath "/" = true
  · rw [segmentPrefix_of_slash hslash]
    exact (boundary_iff.2 h).1
  · rwa [segmentPrefix_of_not_slash (by simpa using hslash)]

/-- The director sends a request to the container for exactly the paths it is to
    be sent there for if, and only if, every root that ends in a slash and that
    the path starts with is of no consequence, as some web service claims the
    path. -/
theorem serveHTTP_iff (d : Director H) (path : String) :
    (d.serveHTTP path = .goRestfulContainer ↔ ∃ r ∈ d.webServices, ToClaim path r) ↔
      ∀ r ∈ d.webServices, hasSuffix r "/" = true → hasPrefix path r = true →
        ∃ r' ∈ d.webServices, (r' = "/apis" ∧ (path = "/apis" ∨ path = "/apis/")) ∨
          (r' ≠ "/apis" ∧ Extends path r') := by
  have hserve : d.serveHTTP path = .goRestfulContainer ↔
      ∃ r ∈ d.webServices, claims path r = true := by
    rw [Director.serveHTTP, ← List.any_eq_true]
    split_ifs with h <;> simp [h]
  simp only [hserve, claims_iff]
  constructor
  · intro h r hr hslash hp
    refine h.2 ⟨r, hr, .inr ⟨?_, (segmentPrefix_of_slash hslash).2 hp⟩⟩
    rintro rfl
    revert hslash
    decide
  · intro h
    constructor
    · rintro ⟨r, hr, hapis | ⟨hne, hext⟩⟩
      · exact ⟨r, hr, .inl hapis⟩
      · exact ⟨r, hr, .inr ⟨hne, hext.segmentPrefix⟩⟩
    · rintro ⟨r, hr, hapis | ⟨hne, hseg⟩⟩
      · exact ⟨r, hr, .inl hapis⟩
      · by_cases hslash : hasSuffix r "/" = true
        · exact h r hr hslash ((segmentPrefix_of_slash hslash).1 hseg)
        · rw [segmentPrefix_of_not_slash (by simpa using hslash)] at hseg
          exact ⟨r, hr, .inr ⟨hne, hseg⟩⟩

/-- A web service at the root of the server is not reached, except for `/`. -/
theorem serveHTTP_root :
    ({ webServices := ["/"], nonGoRestfulMux := .new "404" } : Director String).serveHTTP "/foo" =
      .nonGoRestfulMux "404" ∧ ToClaim "/foo" "/" :=
  ⟨by decide, .inr ⟨by decide, .inr (by decide)⟩⟩

end Apiserver.Server
