import Apiserver.Abac.Policy
import Apiserver.Audit.Policy
import Apiserver.Authorization.Modes
import Apiserver.Rbac.Types

/-!
# Path patterns

Paths are matched against patterns in four places: in the rules of role based
access control, in attribute-based policies, in audit policies and in the paths
that are always allowed. The first three cut the stars off the end of the pattern
and compare what is left; the last one drops a leading slash on both sides, and
sorts its patterns into plain paths and prefixes when it is built.

For patterns that begin with a slash and have no star but the last character
(`IsPathPattern`) this is one language (`Covers`):

* `covers_iff_trimRight`: what the first three compare;
* `covers_iff_pathMatches`: what the last one does, on paths with a slash;
* `matchers_agree`: so the four matchers give the same verdict.
-/

namespace Apiserver.Authorization

open Go

/-- `*`, or a path that may end in `*`. -/
def IsPathPattern (pattern : String) : Prop :=
  pattern = "*" ∨ (hasPrefix pattern "/" = true ∧ '*' ∉ pattern.toList.dropLast)

/-- A pattern stands for every path if it is `*`, for itself, and for the paths
    that begin as it does before a last `*`. -/
def Covers (pattern path : String) : Prop :=
  pattern = "*" ∨ pattern = path ∨ ∃ stem, pattern = stem ++ "*" ∧ hasPrefix path stem = true

variable {pattern path : String}

/-- Cutting off all stars leaves what is before the last one. -/
theorem covers_iff_trimRight (hp : IsPathPattern pattern) :
    Covers pattern path ↔ pattern = "*" ∨ pattern = path ∨
      (hasSuffix pattern "*" = true ∧ hasPrefix path (trimRight pattern '*') = true) := by
  refine or_congr_right' fun hne => or_congr_right ?_
  have hstar := (hp.resolve_left hne).2
  have htrim : ∀ stem, pattern = stem ++ "*" → trimRight pattern '*' = stem := by
    rintro stem rfl
    exact trimRight_append_singleton (by simpa using hstar)
  constructor
  · rintro ⟨stem, hstem, hpre⟩
    exact ⟨hasSuffix_iff.2 ⟨stem, hstem⟩, by rwa [htrim stem hstem]⟩
  · rintro ⟨hsuf, hpre⟩
    obtain ⟨stem, hstem⟩ := hasSuffix_iff.1 hsuf
    exact ⟨stem, hstem, by rwa [htrim stem hstem] at hpre⟩

/-- A slash in front of both sides changes nothing. -/
theorem hasPrefix_slash {s t : String} : hasPrefix ("/" ++ s) ("/" ++ t) = hasPrefix s t := by
  simp [hasPrefix]

theorem slash_append_eq_star {s stem : String} (h : "/" ++ s = stem ++ "*") :
    ∃ stem', stem = "/" ++ stem' ∧ s = stem' ++ "*" := by
  have hlist : '/' :: s.toList = stem.toList ++ ['*'] := by simpa using congrArg String.toList h
  cases hs : stem.toList with
  | nil => simp [hs] at hlist
  | cons c l =>
    obtain ⟨rfl, hl⟩ := List.cons_eq_cons.1 (hs ▸ hlist)
    refine ⟨String.ofList l, ?_, ?_⟩ <;> rw [← String.toList_inj]
    · simp [hs]
    · simp [hl]

/-- The leading slash the path authorizer drops is on both sides, but for the
    pattern `*`, which it takes for an empty prefix. -/
theorem covers_iff_pathMatches (hp : IsPathPattern pattern) (hpath : hasPrefix path "/" = true) :
    Covers pattern path ↔ PathMatches pattern path := by
  rcases hp with rfl | ⟨hp, -⟩
  · exact iff_of_true (.inl rfl) (.inr ⟨"", rfl, rfl⟩)
  obtain ⟨s, rfl⟩ := hasPrefix_iff.1 hp
  obtain ⟨t, rfl⟩ := hasPrefix_iff.1 hpath
  rw [PathMatches, trimPrefix_append, trimPrefix_append]
  constructor
  · rintro (hstar | heq | ⟨stem, hstem, hpre⟩)
    · have hhead := congrArg (fun u => u.toList.head?) hstar
      simp at hhead
    · exact .inl (by simpa using heq.symm)
    · obtain ⟨stem', rfl, rfl⟩ := slash_append_eq_star hstem
      exact .inr ⟨stem', rfl, by rwa [hasPrefix_slash] at hpre⟩
  · rintro (rfl | ⟨stem, rfl, hpre⟩)
    · exact .inr (.inl rfl)
    · exact .inr (.inr ⟨"/" ++ stem, by rw [String.append_assoc], by rwa [hasPrefix_slash]⟩)

theorem notMem_dropLast_trimPrefix (hp : IsPathPattern pattern) :
    '*' ∉ (trimPrefix pattern "/").toList.dropLast := by
  rcases hp with rfl | ⟨hp, hstar⟩
  · decide
  · obtain ⟨s, rfl⟩ := hasPrefix_iff.1 hp
    rw [trimPrefix_append]
    intro hmem
    refine hstar ?_
    have hne : s.toList ≠ [] := List.ne_nil_of_mem (List.dropLast_subset _ hmem)
    rw [String.toList_append, List.dropLast_append_of_ne_nil hne]
    exact List.mem_append_right _ hmem

/-- The path authorizer accepts such a pattern. -/
theorem exists_newPathAuthorizer (d : Deps) (hp : IsPathPattern pattern) :
    ∃ authz, newPathAuthorizer d [pattern] = .ok authz := by
  have hstar :
      containsRune (String.ofList (trimPrefix pattern "/").toList.dropLast) '*' = false := by
    simpa [containsRune] using notMem_dropLast_trimPrefix hp
  rw [newPathAuthorizer, loadPaths]
  simp only [hstar, Bool.false_eq_true, ↓reduceIte]
  split_ifs <;> exact ⟨_, rfl⟩

/-- The four matchers give the same verdict on every pattern and path: whether
    the pattern is `*`, is the path, or ends in `*` after a prefix of the path. -/
theorem matchers_agree (d : Deps) (pattern path : String) (hp : IsPathPattern pattern)
    (hpath : hasPrefix path "/" = true) :
    (∀ rule : Rbac.PolicyRule, rule.nonResourceURLs = [pattern] →
      (Rbac.nonResourceURLMatches rule path = true ↔ Covers pattern path)) ∧
    (∀ (p : Abac.Policy) (a : Attributes), p.spec.nonResourcePath = pattern →
      a.resourceRequest = false → a.path = path →
      (Abac.nonResourceMatches p a = true ↔ Covers pattern path)) ∧
    (Audit.pathMatches path pattern = true ↔ Covers pattern path) ∧
    ∃ authz, newPathAuthorizer d [pattern] = .ok authz ∧
      ∀ a : Attributes, a.resourceRequest = false → a.path = path →
        ((authz a).decision = .allow ↔ Covers pattern path) := by
  obtain ⟨authz, hauthz⟩ := exists_newPathAuthorizer d hp
  refine ⟨fun rule hrule => ?_, fun p a hp' hres ha => ?_, ?_, authz, hauthz, fun a hres ha => ?_⟩
  · rw [covers_iff_trimRight hp, Rbac.nonResourceURLMatches, hrule]
    simp [or_assoc]
  · rw [covers_iff_trimRight hp, Abac.nonResourceMatches, hp', hres, ha]
    by_cases h₁ : pattern = "*" <;> by_cases h₂ : pattern = path <;> simp [h₁, h₂]
  · rw [covers_iff_trimRight hp, Audit.pathMatches]
    by_cases h₁ : pattern = "*" <;> by_cases h₂ : pattern = path <;> simp [h₁, h₂]
  · rw [covers_iff_pathMatches hp hpath, ← ha]
    rcases newPathAuthorizer_spec d hauthz a with ⟨⟨-, hm⟩, heq⟩ | ⟨hm, heq⟩
    · simpa [heq] using hm
    · simpa [heq, hres] using hm

/-- A pattern that ends in a star, and a path below it. -/
theorem matchers_agree_healthz :
    (∃ authz, newPathAuthorizer Deps.plain ["/healthz/*"] = .ok authz ∧
      (authz { path := "/healthz/ping" }).decision = .allow) ∧
    Audit.pathMatches "/healthz/ping" "/healthz/*" = true := by
  have hcovers : Covers "/healthz/*" "/healthz/ping" := .inr (.inr ⟨"/healthz/", rfl, by decide⟩)
  obtain ⟨-, -, haudit, authz, hauthz, hpath⟩ :=
    matchers_agree Deps.plain "/healthz/*" "/healthz/ping" (.inr ⟨by decide, by decide⟩) (by decide)
  exact ⟨⟨authz, hauthz, (hpath { path := "/healthz/ping" } rfl rfl).2 hcovers⟩, haudit.2 hcovers⟩

end Apiserver.Authorization
